import Depthwise.Fixed.Record
import Depthwise.Proofs.Fixed.Grammar
import Depthwise.Proofs.Json.Records
import Depthwise.Proofs.Json.Written

/-!
# The ways to a precision

A precision is made of its numbers, with or without modes, of a text or of JSON (`Source`), and its
modes may be exchanged afterwards (`Change`).  Every source gives parts, and all parts go through one
check, which lets those through that are admitted (`Parts.Admitted`) and changes nothing.

* `parse_spell`, `decode_toJson`: a precision is read back from its text and from its JSON.
* `Source.precision?_eq_some_iff`: a precision is made of a source exactly when the source gives the
  parts of that precision.
* `Source.precision_outcome`: which sources make a precision, and what it is after all changes.
-/

namespace Depthwise

-- Powers are those of the core library, whatever else is imported.
attribute [local instance (high)] instPowNat

open Json (Value)
open Text (Between)

theorem Rounding.ofJson_toJson (mode : Rounding) :
    Rounding.ofJson mode.toJson.reading = .ok mode := by
  cases mode <;> rfl

theorem Overflow.ofJson_toJson (mode : Overflow) :
    Overflow.ofJson mode.toJson.reading = .ok mode := by
  cases mode <;> rfl

namespace Precision

/-! ### Parts -/

/-- Up to 32 bits, and up to 32 of them between the last bit and the point, on either side. -/
def Parts.Admitted (parts : Parts) : Prop :=
  1 ≤ parts.width ∧ parts.width ≤ 32 ∧ ((parts.width : Int) - parts.integer).natAbs ≤ 32

instance (parts : Parts) : Decidable parts.Admitted :=
  inferInstanceAs (Decidable (_ ∧ _ ∧ _))

/-- The parts in which those fields are entered and no others. -/
def Parts.filled (parts : Parts) (names : List String) : Parts where
  width := if "width" ∈ names then parts.width else 0
  integer := if "integer" ∈ names then parts.integer else 0
  isSigned := if "signed" ∈ names then parts.isSigned else true
  rounding := if "rounding" ∈ names then parts.rounding else .down
  overflow := if "overflow" ∈ names then parts.overflow else .wrap

variable (p : Precision)

/-- The parts of a precision. -/
def parts : Parts := ⟨p.width, p.integer, p.isSigned, p.rounding, p.overflow⟩

variable {p} {parts : Parts}

theorem ofParts_eq_ok_iff : ofParts parts = .ok p ↔ p.parts = parts := by
  rw [ofParts, ofModes_eq_ok_iff]
  constructor
  · rintro ⟨hwidth, hinteger, hsigned, hrounding, hoverflow⟩
    rw [Precision.parts, ← hwidth, ← hinteger, ← hsigned, ← hrounding, ← hoverflow]
  · rintro rfl
    exact ⟨rfl, rfl, rfl, rfl, rfl⟩

/-- The one check.  What is not admitted is refused as a malformed precision. -/
theorem ofParts_outcome (parts : Parts) :
    (parts.Admitted → ∃ p, ofParts parts = .ok p) ∧
      (¬ parts.Admitted → ∃ fault, ofParts parts = .error (.invalidPrecision fault)) := by
  have hfrac : ((parts.width : Int) - parts.integer).natAbs ≤ 32 ↔
      -32 ≤ (parts.width : Int) - parts.integer ∧ (parts.width : Int) - parts.integer ≤ 32 := by
    omega
  unfold ofParts ofModes Parts.Admitted
  rw [hfrac]
  constructor
  · rintro ⟨hpos, hle, hfrac⟩
    rw [dif_pos ⟨hpos, hle⟩, dif_pos hfrac]
    exact ⟨_, rfl⟩
  · intro hnot
    split
    · split
      · next hwidth hfrac => exact absurd ⟨hwidth.1, hwidth.2, hfrac⟩ hnot
      · exact ⟨_, rfl⟩
    · exact ⟨_, rfl⟩

/-- Behind the point there may be 32 bits, and not 33. -/
example : Parts.Admitted ⟨8, -24, true, .down, .wrap⟩ ∧
    ¬ Parts.Admitted ⟨8, -25, true, .down, .wrap⟩ := by decide

theorem admitted_of_ofParts (h : ofParts parts = .ok p) : parts.Admitted := by
  by_contra hnot
  obtain ⟨fault, herror⟩ := (ofParts_outcome parts).2 hnot
  cases h.symm.trans herror

theorem ofParts_parts (p : Precision) : ofParts p.parts = .ok p := ofParts_eq_ok_iff.mpr rfl

variable (p)

/-! ### Texts -/

theorem spellChars_eq :
    p.spellChars =
      (if p.isSigned then "fixed".toList else "ufixed".toList) ++
        '<' :: ([','].intercalate [Text.ofNat p.width, Text.ofInt p.integer,
          p.rounding.name.toList, p.overflow.name.toList] ++ ['>']) := by
  cases hsigned : p.isSigned <;>
    simp [spellChars, hsigned, List.intercalate, List.intersperse]

/-- A precision is one of the texts that denote it. -/
theorem parse_spell : parse p.spell = .ok p := by
  rw [parse_eq_ok_iff, spell, String.toList_ofList, spellChars_eq]
  have hkind : KindName p.isSigned (if p.isSigned then "fixed".toList else "ufixed".toList) := by
    cases p.isSigned
    · exact .ufixed
    · exact .fixed
  exact ⟨_, _, _, _, [], rfl, .of hkind, .of (Text.unsigned_ofNat _), .of (Text.signed_ofInt _),
    .both (.of .plain) (.of .plain), Text.blanks_nil⟩

/-! ### JSON -/

/-- The members of a written precision. -/
def members : List (String × Value) :=
  [("width", .integer p.width), ("integer", .integer p.integer), ("signed", .bool p.isSigned),
    ("rounding", p.rounding.toJson), ("overflow", p.overflow.toJson)]

theorem width_fits : p.width ≤ 2 ^ (32 : Nat) - 1 :=
  Nat.le_trans p.width_le (by decide)

theorem integer_fits : -2 ^ (31 : Nat) ≤ p.integer ∧ p.integer ≤ 2 ^ (31 : Nat) - 1 := by
  have hpos := p.width_pos
  have hle := p.width_le
  have hlo := p.frac_ge
  have hhi := p.frac_le
  omega

theorem fits_toJson : p.toJson.Fits := by
  have hwidth := p.width_fits
  obtain ⟨hlo, hhi⟩ := p.integer_fits
  simp only [toJson, Rounding.toJson, Overflow.toJson, Value.fits_object_iff, List.forall_mem_cons,
    List.not_mem_nil, false_implies, implies_true, and_true, Value.fits_integer_iff,
    Json.Numeral.gatherLimit, Value.Fits.bool, Value.Fits.text]
  omega

/-- Each member fills its field. -/
theorem fills_members :
    ∀ m ∈ p.members, schema.Fills p.parts.filled (.text (.ok m.1) none, m.2.reading) := by
  have hwidth := Json.Reading.natural_reading "u32" p.width_fits
  have hinteger := Json.Reading.integer_reading "i32" p.integer_fits.1 p.integer_fits.2
  have hrounding := p.rounding.ofJson_toJson
  have hoverflow := p.overflow.ofJson_toJson
  simp only [members, List.forall_mem_cons, List.not_mem_nil, false_implies, implies_true,
    and_true]
  -- one case for each field: it is found by its name, takes the value, and enters it
  refine ⟨⟨_, _, _, rfl, rfl, bind_eq_ok.mpr ⟨_, hwidth, rfl⟩, fun names => ?_⟩,
    ⟨_, _, _, rfl, rfl, bind_eq_ok.mpr ⟨_, hinteger, rfl⟩, fun names => ?_⟩,
    ⟨_, _, _, rfl, rfl, rfl, fun names => ?_⟩,
    ⟨_, _, _, rfl, rfl, bind_eq_ok.mpr ⟨_, hrounding, rfl⟩, fun names => ?_⟩,
    ⟨_, _, _, rfl, rfl, bind_eq_ok.mpr ⟨_, hoverflow, rfl⟩, fun names => ?_⟩⟩ <;>
    simp [Parts.filled, Precision.parts]

theorem read_toJson : schema.read p.toJson.reading = .ok p.parts := by
  have hnodup : (p.members.map Prod.fst).Nodup := by simp [members]
  have hgiven : ∀ field ∈ schema.fields, field.required = true →
      field.name ∈ p.members.map Prod.fst := by simp [schema, members]
  have hperm : (Json.memberReadings p.members).Perm (Json.memberReadings p.members ++ []) :=
    .of_eq (List.append_nil _).symm
  obtain ⟨names, hnames, hread⟩ :=
    Json.Schema.read_perm_eq_ok rfl hperm p.fills_members (by simp) hnodup hgiven
  have hall : ∀ name, name ∈ names ↔ name ∈ p.members.map Prod.fst := fun _ => hnames.mem_iff
  have hfilled : p.parts.filled names = p.parts := by
    simp [Parts.filled, hall, members]
  rwa [hfilled] at hread

theorem ofJson_eq_ok_iff {r : Json.Reading} :
    ofJson r = .ok p ↔ schema.read r = .ok p.parts := by
  rw [ofJson, bind_eq_ok]
  constructor
  · rintro ⟨parts, hread, h⟩
    cases hparts : ofParts parts with
    | error fault =>
        rw [hparts] at h
        cases h
    | ok q =>
        rw [hparts] at h
        cases h
        rwa [ofParts_eq_ok_iff.mp hparts]
  · intro hread
    refine ⟨_, hread, ?_⟩
    rw [ofParts_parts]
    rfl

theorem decode_toJson : Json.decode ofJson p.toJson.render = .ok p := by
  rw [Json.decode_render _ p.fits_toJson]
  exact p.ofJson_eq_ok_iff.mpr p.read_toJson

/-! ### All ways -/

/-- The parts a text gives, before they are judged. -/
def declared (s : String) : Except Fault Parts := do
  let (head, rest) ← demand (.invalidPrecision .unopened) (cut '<' (Text.trim s.toList))
  let body ← demand (.invalidPrecision .unclosed) (unclose rest)
  let isSigned ← demand (.invalidPrecision .unknownKind) (signedness? (Text.trim head))
  let parameters := (body.splitOn ',').map Text.trim
  let width ← demand (.invalidPrecision .badWidth) (parameters[0]?.bind width?)
  let integer ← demand (.invalidPrecision .badInteger) (parameters[1]?.bind integer?)
  let (rounding, overflow) ← modes (parameters.drop 2)
  return ⟨width, integer, isSigned, rounding, overflow⟩

/-- What a precision is made of. -/
inductive Source where
  | bits (width : Nat) (integer : Int)
  | bitsUnsigned (width : Nat) (integer : Int)
  | modes (parts : Parts)
  | text (s : String)
  | json (s : String)

namespace Source

/-- The precision made of it. -/
def precision? : Source → Option Precision
  | bits width integer => (ofBits width integer).toOption
  | bitsUnsigned width integer => (ofBitsUnsigned width integer).toOption
  | modes parts => (ofParts parts).toOption
  | text s => (parse s).toOption
  | json s => (Json.decode ofJson s).toOption

/-- The parts it gives, before they are judged. -/
def parts? : Source → Option Parts
  | bits width integer => some ⟨width, integer, true, .down, .wrap⟩
  | bitsUnsigned width integer => some ⟨width, integer, false, .down, .wrap⟩
  | modes parts => some parts
  | text s => (declared s).toOption
  | json s => (Json.decode schema.read s).toOption

end Source

theorem toOption_eq_some_iff {ε α : Type} {x : Except ε α} {a : α} :
    x.toOption = some a ↔ x = .ok a := by
  cases x <;> simp [Except.toOption]

variable {p}

theorem parse_eq_ok_iff_declared {s : String} : parse s = .ok p ↔ declared s = .ok p.parts := by
  have hparse : parse s = declared s >>= ofParts := by
    simp only [parse, declared, bind_assoc, pure_bind]
    rfl
  rw [hparse, bind_eq_ok]
  simp only [ofParts_eq_ok_iff, exists_eq_right']

theorem decode_ofJson_eq_ok_iff {s : String} :
    Json.decode ofJson s = .ok p ↔ Json.decode schema.read s = .ok p.parts := by
  rw [Json.decode_eq_ok_iff, Json.decode_eq_ok_iff, ofJson_eq_ok_iff]

/-- **There is one check**, and nothing is changed on any way to it. -/
theorem Source.precision?_eq_some_iff {source : Source} :
    source.precision? = some p ↔ source.parts? = some p.parts := by
  have hparts : ∀ parts, ofParts parts = .ok p ↔ some parts = some p.parts := fun parts => by
    rw [ofParts_eq_ok_iff, Option.some.injEq, eq_comm]
  cases source with
  | bits width integer =>
      exact toOption_eq_some_iff.trans (hparts ⟨width, integer, true, .down, .wrap⟩)
  | bitsUnsigned width integer =>
      exact toOption_eq_some_iff.trans (hparts ⟨width, integer, false, .down, .wrap⟩)
  | modes parts => exact toOption_eq_some_iff.trans (hparts parts)
  | text s =>
      exact toOption_eq_some_iff.trans (parse_eq_ok_iff_declared.trans toOption_eq_some_iff.symm)
  | json s =>
      exact toOption_eq_some_iff.trans (decode_ofJson_eq_ok_iff.trans toOption_eq_some_iff.symm)

/-- A mode that is put in place of another. -/
inductive Change where
  | rounding (mode : Rounding)
  | overflow (mode : Overflow)

/-- The precision with another mode. -/
def change (p : Precision) : Change → Precision
  | .rounding mode => p.withRounding mode
  | .overflow mode => p.withOverflow mode

/-- The parts with another mode. -/
def Parts.change (parts : Parts) : Change → Parts
  | .rounding mode => { parts with rounding := mode }
  | .overflow mode => { parts with overflow := mode }

theorem parts_foldl_change (changes : List Change) :
    (changes.foldl change p).parts = changes.foldl Parts.change p.parts := by
  induction changes generalizing p with
  | nil => rfl
  | cons c cs ih =>
      have hstep : (p.change c).parts = p.parts.change c := by cases c <;> rfl
      rw [List.foldl_cons, List.foldl_cons, ih, hstep]

/-- Modes do not enter into what is admitted. -/
theorem Parts.Admitted.foldl_change (h : parts.Admitted) (changes : List Change) :
    (changes.foldl Parts.change parts).Admitted := by
  induction changes generalizing parts with
  | nil => exact h
  | cons c cs ih =>
      have hstep : (parts.change c).Admitted := by cases c <;> exact h
      exact ih hstep

/-- **Whatever way a precision comes.**  It is made exactly when parts are given that are admitted.
It has the parts given, but for the modes put in their place afterwards, and is read back whole from
its text and from its JSON. -/
theorem Source.precision_outcome (source : Source) (changes : List Change) :
    (source.precision?.isSome ↔ ∃ parts, source.parts? = some parts ∧ parts.Admitted) ∧
      ∀ p, source.precision? = some p →
        let q := changes.foldl change p
        (∃ parts, source.parts? = some parts ∧ q.parts = changes.foldl Parts.change parts) ∧
          q.parts.Admitted ∧ parse q.spell = .ok q ∧ Json.decode ofJson q.toJson.render = .ok q := by
  have hadmitted : ∀ p, source.precision? = some p →
      source.parts? = some p.parts ∧ p.parts.Admitted := fun p hp =>
    ⟨precision?_eq_some_iff.mp hp, admitted_of_ofParts (ofParts_parts p)⟩
  refine ⟨⟨fun hsome => ?_, ?_⟩, fun p hp => ?_⟩
  · obtain ⟨p, hp⟩ := Option.isSome_iff_exists.mp hsome
    exact ⟨p.parts, hadmitted p hp⟩
  · rintro ⟨parts, hparts, h⟩
    obtain ⟨p, hp⟩ := (ofParts_outcome parts).1 h
    rw [← ofParts_eq_ok_iff.mp hp] at hparts
    exact Option.isSome_iff_exists.mpr ⟨p, precision?_eq_some_iff.mpr hparts⟩
  · obtain ⟨hparts, h⟩ := hadmitted p hp
    intro q
    have hq : q.parts = changes.foldl Parts.change p.parts := parts_foldl_change changes
    exact ⟨⟨_, hparts, hq⟩, hq ▸ h.foldl_change changes, parse_spell q, decode_toJson q⟩

/-- A text with blanks, a sign, a leading zero and a prefix, its overflow mode exchanged. -/
theorem Source.precision_exchanged :
    ∃ p, (Source.text " ap_ufixed < +08,\t-3 , AC_RND> ").precision? = some p ∧
      (p.change (.overflow .symmetric)).parts = ⟨8, -3, false, .nearestUp, .symmetric⟩ ∧
      parse (p.change (.overflow .symmetric)).spell = .ok (p.change (.overflow .symmetric)) ∧
      Json.decode ofJson (p.change (.overflow .symmetric)).toJson.render =
        .ok (p.change (.overflow .symmetric)) := by
  obtain ⟨-, hp⟩ :=
    Source.precision_outcome (.text " ap_ufixed < +08,\t-3 , AC_RND> ") [.overflow .symmetric]
  have hread : (Source.text " ap_ufixed < +08,\t-3 , AC_RND> ").precision? =
      some ⟨8, -3, false, .nearestUp, .wrap, by decide, by decide, by decide, by decide⟩ := rfl
  obtain ⟨-, -, htext, hjson⟩ := hp _ hread
  exact ⟨_, hread, rfl, htext, hjson⟩

end Precision

end Depthwise
