import Depthwise.Fixed.Spelling
import Depthwise.Proofs.Geometry.Spans
import Depthwise.Proofs.Text.Numerals
import Depthwise.Proofs.Text.Trimmed

/-!
# The grammar of precisions

`Precision.Written` says which texts are a precision, and which precision each is: a kind, an
opening bracket, two numbers and up to two modes with commas between them, a closing bracket, and
blanks wherever these parts meet.  It knows nothing of trimming, of splitting or of the order in
which the parser looks at the parts.

* `parse_eq_ok_iff`: the parser reads exactly these texts, each as the precision it is.
* `parse_outcome`: and it refuses every other text for its form, whatever the text is.
-/

namespace Depthwise

open Text (Blanks Bare Between Unsigned Signed)

/-! ### The grammar -/

/-- A mode name, one vendor's prefix being allowed. -/
inductive ModeName (name : String) : List Char → Prop
  | plain : ModeName name name.toList
  | ap : ModeName name ("AP_".toList ++ name.toList)
  | ac : ModeName name ("AC_".toList ++ name.toList)

namespace Precision

/-- The names of the signed and of the unsigned kind. -/
inductive KindName : Bool → List Char → Prop
  | fixed : KindName true "fixed".toList
  | apFixed : KindName true "ap_fixed".toList
  | ufixed : KindName false "ufixed".toList
  | apUfixed : KindName false "ap_ufixed".toList

/-- The modes that may follow the two numbers. -/
inductive Modes : List (List Char) → Rounding → Overflow → Prop
  | none : Modes [] .down .wrap
  | rounding {q : List Char} {rounding : Rounding} :
      Between (ModeName rounding.name) q → Modes [q] rounding .wrap
  | both {q o : List Char} {rounding : Rounding} {overflow : Overflow} :
      Between (ModeName rounding.name) q → Between (ModeName overflow.name) o →
        Modes [q, o] rounding overflow

/-- The text `cs` is the precision `p`. -/
def Written (cs : List Char) (p : Precision) : Prop :=
  ∃ kind width integer modes after,
    cs = kind ++ '<' :: ([','].intercalate (width :: integer :: modes) ++ '>' :: after) ∧
      Between (KindName p.isSigned) kind ∧ Between (Unsigned · p.width) width ∧
      Between (Signed · p.integer) integer ∧ Modes modes p.rounding p.overflow ∧ Blanks after

end Precision

/-! ### Solid texts -/

/-- A text of which no character is a blank, a comma or an opening bracket. -/
def Solid (cs : List Char) : Prop := ∀ c ∈ cs, Text.isBlank c = false ∧ c ≠ ',' ∧ c ≠ '<'

instance (cs : List Char) : Decidable (Solid cs) :=
  List.decidableBAll (fun c => Text.isBlank c = false ∧ c ≠ ',' ∧ c ≠ '<') cs

theorem Solid.bare {cs : List Char} (h : Solid cs) : Bare cs :=
  ⟨fun c hc => (h c (List.mem_of_head? hc)).1, fun c hc => (h c (List.mem_of_getLast? hc)).1⟩

theorem Solid.comma_not_mem {cs : List Char} (h : Solid cs) : ',' ∉ cs :=
  fun hmem => (h _ hmem).2.1 rfl

theorem Solid.bracket_not_mem {cs : List Char} (h : Solid cs) : '<' ∉ cs :=
  fun hmem => (h _ hmem).2.2 rfl

theorem solid_of_isDigit {cs : List Char} (h : ∀ c ∈ cs, c.isDigit = true) : Solid cs := by
  intro c hc
  have hdigit := h c hc
  simp only [Char.isDigit, Bool.and_eq_true, decide_eq_true_eq] at hdigit
  have hlo : 48 ≤ c.toNat := hdigit.1
  have hhi : c.toNat ≤ 57 := hdigit.2
  refine ⟨?_, ?_, ?_⟩
  · simp only [Text.isBlank, Text.blankRanges, List.any_cons, List.any_nil, Bool.or_false,
      Bool.or_eq_false_iff, Bool.and_eq_false_imp, decide_eq_true_eq, decide_eq_false_iff_not]
    omega
  · rintro rfl
    revert hlo
    decide
  · rintro rfl
    revert hhi
    decide

theorem Solid.cons {c : Char} {cs : List Char} (hc : Solid [c]) (h : Solid cs) :
    Solid (c :: cs) := by
  intro d hd
  rcases List.mem_cons.mp hd with rfl | hd
  · exact hc _ (by simp)
  · exact h d hd

theorem solid_unsigned {cs : List Char} {n : Nat} (h : Unsigned cs n) : Solid cs := by
  cases h with
  | bare h => exact solid_of_isDigit h.isDigit
  | plus h => exact .cons (by decide) (solid_of_isDigit h.isDigit)

theorem solid_signed {cs : List Char} {i : Int} (h : Signed cs i) : Solid cs := by
  cases h with
  | unsigned h => exact solid_unsigned h
  | minus h => exact .cons (by decide) (solid_of_isDigit h.isDigit)

theorem solid_kindName {isSigned : Bool} {cs : List Char} (h : Precision.KindName isSigned cs) :
    Solid cs := by
  cases h <;> decide

theorem solid_rounding {mode : Rounding} {cs : List Char} (h : ModeName mode.name cs) :
    Solid cs := by
  cases h <;> cases mode <;> decide

theorem solid_overflow {mode : Overflow} {cs : List Char} (h : ModeName mode.name cs) :
    Solid cs := by
  cases h <;> cases mode <;> decide

/-! ### The parts -/

theorem modeName_eq_iff {name : String} (hname : modeName name.toList = name)
    (hsolid : ∀ core, ModeName name core → Solid core) {cs : List Char} :
    modeName cs = name ↔ Between (ModeName name) cs := by
  rw [← Text.trim_iff_between fun core h => (hsolid core h).bare]
  generalize hcore : Text.trim cs = core
  constructor
  · intro h
    unfold modeName at h
    rw [hcore] at h
    split at h <;> subst h
    · next rest =>
      have hap : ModeName (String.ofList rest) _ := .ap
      simpa using hap
    · next rest =>
      have hac : ModeName (String.ofList rest) _ := .ac
      simpa using hac
    · have hplain : ModeName (String.ofList core) _ := .plain
      simpa using hplain
  · intro h
    cases h with
    | plain =>
        have hbare := (hsolid _ .plain).bare
        rwa [modeName, Text.trim_of_bare hbare, ← hcore, ← modeName] at hname
    | ap => simp [modeName, hcore]
    | ac => simp [modeName, hcore]

/-- A mode is read from its name and from nothing else. -/
theorem Rounding.read_eq_ok_iff {cs : List Char} {mode : Rounding} :
    Rounding.read cs = .ok mode ↔ Between (ModeName mode.name) cs := by
  rw [read, demand_eq_ok, ← modeName_eq_iff (by cases mode <;> rfl) fun _ => solid_rounding,
    ofName?_eq_some_iff, eq_comm]

theorem Overflow.read_eq_ok_iff {cs : List Char} {mode : Overflow} :
    Overflow.read cs = .ok mode ↔ Between (ModeName mode.name) cs := by
  rw [read, demand_eq_ok, ← modeName_eq_iff (by cases mode <;> rfl) fun _ => solid_overflow,
    ofName?_eq_some_iff, eq_comm]

namespace Precision

theorem cut_append {sep : Char} {before after : List Char} (h : sep ∉ before) :
    cut sep (before ++ sep :: after) = some (before, after) := by
  induction before with
  | nil => rw [List.nil_append, cut, if_pos rfl]
  | cons c cs ih =>
      have hc : c ≠ sep := fun hc => h (hc ▸ List.mem_cons_self)
      have hcs : sep ∉ cs := fun hmem => h (List.mem_cons_of_mem c hmem)
      rw [List.cons_append, cut, if_neg hc, ih hcs, Option.map_some]

/-- A text is cut at the first separator it has. -/
theorem cut_eq_some_iff {sep : Char} {cs before after : List Char} :
    cut sep cs = some (before, after) ↔ cs = before ++ sep :: after ∧ sep ∉ before := by
  refine ⟨fun h => ?_, fun h => h.1 ▸ cut_append h.2⟩
  induction cs generalizing before with
  | nil => cases h
  | cons c cs ih =>
      unfold cut at h
      split at h
      · next hc =>
        cases h
        exact ⟨congrArg (· :: after) hc, List.not_mem_nil⟩
      · next hc =>
        obtain ⟨⟨init, _⟩, hcut, heq⟩ := Option.map_eq_some_iff.mp h
        cases heq
        obtain ⟨rfl, hmem⟩ := ih hcut
        refine ⟨rfl, fun hsep => ?_⟩
        rcases List.mem_cons.mp hsep with rfl | hsep
        · exact hc rfl
        · exact hmem hsep

theorem unclose_eq_some_iff {cs body : List Char} :
    unclose cs = some body ↔ cs = body ++ ['>'] := by
  unfold unclose
  constructor
  · intro h
    split at h
    · next hlast =>
      obtain ⟨init, rfl⟩ := List.getLast?_eq_some_iff.mp hlast
      rw [← Option.some.inj h, List.dropLast_concat]
    · cases h
  · rintro rfl
    simp

theorem signedness?_eq_some_iff {cs : List Char} {isSigned : Bool} :
    signedness? cs = some isSigned ↔ KindName isSigned cs := by
  constructor
  · intro h
    have hcs : cs = (String.ofList cs).toList := String.toList_ofList.symm
    unfold signedness? at h
    rw [hcs]
    split at h <;> cases h
    · next heq => rw [heq]; exact .fixed
    · next heq => rw [heq]; exact .apFixed
    · next heq => rw [heq]; exact .ufixed
    · next heq => rw [heq]; exact .apUfixed
  · rintro (_ | _ | _ | _) <;> rfl

variable {p : Precision}

/-- An admitted width fits the reader's numbers. -/
theorem width?_eq_some_iff {cs : List Char} : width? cs = some p.width ↔ Unsigned cs p.width := by
  have hfits : p.width < 4294967296 := by have := p.width_le; omega
  simp [width?, Text.natural?_eq_some_iff, hfits]

/-- And so does an admitted number of integer bits. -/
theorem integer?_eq_some_iff {cs : List Char} :
    integer? cs = some p.integer ↔ Signed cs p.integer := by
  have hfits : -2147483648 ≤ p.integer ∧ p.integer < 2147483648 := by
    have := p.width_le
    have := p.frac_ge
    have := p.frac_le
    omega
  simp only [integer?, Option.filter_eq_some_iff, Text.integer?_eq_some_iff]
  simp [hfits]

theorem ofModes_eq_ok_iff {width : Nat} {integer : Int} {isSigned : Bool} {rounding : Rounding}
    {overflow : Overflow} :
    ofModes width integer isSigned rounding overflow = .ok p ↔
      width = p.width ∧ integer = p.integer ∧ isSigned = p.isSigned ∧
        rounding = p.rounding ∧ overflow = p.overflow := by
  unfold ofModes
  constructor
  · intro h
    split at h
    · split at h <;> cases h
      exact ⟨rfl, rfl, rfl, rfl, rfl⟩
    · cases h
  · rintro ⟨rfl, rfl, rfl, rfl, rfl⟩
    rw [dif_pos ⟨p.width_pos, p.width_le⟩, dif_pos ⟨p.frac_ge, p.frac_le⟩]

/-- At most two modes are read, and what is left out is as in the plain formats. -/
theorem modes_eq_ok_iff {ms : List (List Char)} {rounding : Rounding} {overflow : Overflow} :
    modes (ms.map Text.trim) = .ok (rounding, overflow) ↔ Modes ms rounding overflow := by
  have hq : ∀ {q : List Char} {mode : Rounding},
      Rounding.read (Text.trim q) = .ok mode ↔ Between (ModeName mode.name) q := fun {q mode} => by
    rw [Rounding.read_eq_ok_iff, Text.between_trim_iff fun _ h => (solid_rounding h).bare]
  have ho : ∀ {o : List Char} {mode : Overflow},
      Overflow.read (Text.trim o) = .ok mode ↔ Between (ModeName mode.name) o := fun {o mode} => by
    rw [Overflow.read_eq_ok_iff, Text.between_trim_iff fun _ h => (solid_overflow h).bare]
  constructor
  · intro h
    match ms with
    | [] =>
        cases h
        exact .none
    | [q] =>
        obtain ⟨mode, hmode, heq⟩ := bind_eq_ok.mp h
        cases heq
        exact .rounding (hq.mp hmode)
    | [q, o] =>
        obtain ⟨mode, hmode, h⟩ := bind_eq_ok.mp h
        obtain ⟨mode', hmode', heq⟩ := bind_eq_ok.mp h
        cases heq
        exact .both (hq.mp hmode) (ho.mp hmode')
    | q :: o :: _ :: _ =>
        obtain ⟨_, -, h⟩ := bind_eq_ok.mp h
        obtain ⟨_, -, h⟩ := bind_eq_ok.mp h
        cases h
  · intro h
    cases h with
    | none => rfl
    | rounding h => exact bind_eq_ok.mpr ⟨_, hq.mpr h, rfl⟩
    | both h h' => exact bind_eq_ok.mpr ⟨_, hq.mpr h, bind_eq_ok.mpr ⟨_, ho.mpr h', rfl⟩⟩

/-! ### The whole text -/

/-- The parts of the text between the brackets. -/
def Parameters (parts : List (List Char)) (p : Precision) : Prop :=
  ∃ width integer modes, parts = width :: integer :: modes ∧ Between (Unsigned · p.width) width ∧
    Between (Signed · p.integer) integer ∧ Modes modes p.rounding p.overflow

theorem parameters_iff {parts : List (List Char)} :
    Parameters parts p ↔
      (parts.map Text.trim)[0]?.bind width? = some p.width ∧
        (parts.map Text.trim)[1]?.bind integer? = some p.integer ∧
        modes ((parts.map Text.trim).drop 2) = .ok (p.rounding, p.overflow) := by
  have hwidth : ∀ {cs}, width? (Text.trim cs) = some p.width ↔ Between (Unsigned · p.width) cs :=
    width?_eq_some_iff.trans (Text.trim_iff_between fun _ h => (solid_unsigned h).bare)
  have hinteger : ∀ {cs},
      integer? (Text.trim cs) = some p.integer ↔ Between (Signed · p.integer) cs :=
    integer?_eq_some_iff.trans (Text.trim_iff_between fun _ h => (solid_signed h).bare)
  match parts with
  | [] => simp [Parameters]
  | [_] => simp [Parameters]
  | width :: integer :: ms => simp [Parameters, hwidth, hinteger, modes_eq_ok_iff]

/-- No part has a comma in it, so the commas between them are where the text is split. -/
theorem Parameters.comma_not_mem {parts : List (List Char)} (h : Parameters parts p) :
    ∀ part ∈ parts, ',' ∉ part := by
  obtain ⟨width, integer, ms, rfl, hwidth, hinteger, hmodes⟩ := h
  have comma : Text.isBlank ',' = false := by decide
  have hms : ∀ part ∈ ms, ',' ∉ part := by
    generalize p.rounding = rounding, p.overflow = overflow at hmodes
    cases hmodes with
    | none => simp
    | rounding hq =>
        simpa using hq.not_mem comma fun _ h => (solid_rounding h).comma_not_mem
    | both hq ho =>
        simpa using And.intro (hq.not_mem comma fun _ h => (solid_rounding h).comma_not_mem)
          (ho.not_mem comma fun _ h => (solid_overflow h).comma_not_mem)
  rw [List.forall_mem_cons, List.forall_mem_cons]
  exact ⟨hwidth.not_mem comma fun _ h => (solid_unsigned h).comma_not_mem,
    hinteger.not_mem comma fun _ h => (solid_signed h).comma_not_mem, hms⟩

theorem splitOn_iff {body : List Char} :
    Parameters (body.splitOn ',') p ↔
      ∃ parts, body = [','].intercalate parts ∧ Parameters parts p := by
  constructor
  · intro h
    exact ⟨_, (List.intercalate_splitOn ',').symm, h⟩
  · rintro ⟨parts, rfl, h⟩
    have hne : parts ≠ [] := by
      obtain ⟨_, _, _, rfl, -⟩ := h
      simp
    rwa [List.splitOn_intercalate ',' h.comma_not_mem hne]

/-- What the parser finds in the trimmed text. -/
theorem parse_eq_ok_iff_trim {s : String} :
    parse s = .ok p ↔
      ∃ kind body, Text.trim s.toList = kind ++ '<' :: (body ++ ['>']) ∧
        Between (KindName p.isSigned) kind ∧ Parameters (body.splitOn ',') p := by
  have hkind : ∀ {isSigned : Bool} {kind : List Char},
      KindName isSigned (Text.trim kind) ↔ Between (KindName isSigned) kind :=
    Text.trim_iff_between fun _ h => (solid_kindName h).bare
  simp only [parse, bind_eq_ok, demand_eq_ok, Prod.exists, cut_eq_some_iff, unclose_eq_some_iff,
    signedness?_eq_some_iff, ofModes_eq_ok_iff, parameters_iff, hkind]
  constructor
  · rintro ⟨kind, _, ⟨htrim, -⟩, body, rfl, _, hname, _, hwidth, _, hinteger, _, _, hmodes,
      rfl, rfl, rfl, rfl, rfl⟩
    exact ⟨kind, body, htrim, hname, hwidth, hinteger, hmodes⟩
  · rintro ⟨kind, body, htrim, hname, hwidth, hinteger, hmodes⟩
    have hbracket : '<' ∉ kind :=
      hname.not_mem (by decide) fun _ h => (solid_kindName h).bracket_not_mem
    exact ⟨kind, _, ⟨htrim, hbracket⟩, body, rfl, _, hname, _, hwidth, _, hinteger, _, _, hmodes,
      rfl, rfl, rfl, rfl, rfl⟩

theorem written_iff {cs : List Char} :
    Written cs p ↔
      ∃ kind parts after, cs = kind ++ '<' :: ([','].intercalate parts ++ '>' :: after) ∧
        Between (KindName p.isSigned) kind ∧ Parameters parts p ∧ Blanks after := by
  constructor
  · rintro ⟨kind, width, integer, ms, after, heq, hkind, hwidth, hinteger, hmodes, hafter⟩
    exact ⟨kind, _, after, heq, hkind, ⟨width, integer, ms, rfl, hwidth, hinteger, hmodes⟩, hafter⟩
  · rintro ⟨kind, _, after, heq, hkind, ⟨width, integer, ms, rfl, hwidth, hinteger, hmodes⟩,
      hafter⟩
    exact ⟨kind, width, integer, ms, after, heq, hkind, hwidth, hinteger, hmodes, hafter⟩

/-- A kind name does not begin with a blank, so a text that begins with one and ends with a closing
bracket is its own core. -/
theorem bare_of_kindName {isSigned : Bool} {name : List Char} (h : KindName isSigned name)
    (cs : List Char) : Bare (name ++ cs ++ ['>']) := by
  have hbracket : Text.isBlank '>' = false := by decide
  constructor
  · cases h <;> (rintro _ ⟨⟩; decide)
  · simpa using hbracket

/-- **The parser reads what the grammar says.** -/
theorem parse_eq_ok_iff {s : String} : parse s = .ok p ↔ Written s.toList p := by
  rw [parse_eq_ok_iff_trim, written_iff]
  constructor
  · rintro ⟨kind, body, htrim, ⟨front, name, back, hf, hname, hb, rfl⟩, hbody⟩
    obtain ⟨parts, rfl, hparts⟩ := splitOn_iff.mp hbody
    obtain ⟨before, after, hbefore, hafter, heq⟩ := Text.eq_append_trim s.toList
    refine ⟨before ++ (front ++ name ++ back), parts, after, ?_,
      ⟨before ++ front, name, back, hbefore.append hf, hname, hb, ?_⟩, hparts, hafter⟩
    · rw [heq, htrim]
      simp only [List.append_assoc, List.cons_append, List.nil_append]
    · simp only [List.append_assoc]
  · rintro ⟨kind, parts, after, heq, ⟨front, name, back, hf, hname, hb, rfl⟩, hparts, hafter⟩
    refine ⟨name ++ back, [','].intercalate parts, ?_,
      ⟨[], name, back, Text.blanks_nil, hname, hb, rfl⟩, splitOn_iff.mpr ⟨parts, rfl, hparts⟩⟩
    have hbare := bare_of_kindName hname (back ++ '<' :: [','].intercalate parts)
    have htrim := Text.trim_append hf hafter hbare
    rw [heq]
    simpa only [List.append_assoc, List.cons_append, List.nil_append] using htrim

/-! ### Refused texts -/

/-- A computation that is refused for nothing but the form of a precision. -/
def OnlyMalformed {α : Type} (x : Except Fault α) : Prop :=
  ∀ fault, x = .error fault → ∃ f, fault = .invalidPrecision f

theorem OnlyMalformed.demand {α : Type} (f : PrecisionFault) (o : Option α) :
    OnlyMalformed (demand (.invalidPrecision f) o) := by
  cases o with
  | none => rintro _ ⟨⟩; exact ⟨f, rfl⟩
  | some a => rintro _ ⟨⟩

theorem OnlyMalformed.bind {α β : Type} {x : Except Fault α} {f : α → Except Fault β}
    (hx : OnlyMalformed x) (hf : ∀ a, OnlyMalformed (f a)) : OnlyMalformed (x >>= f) := by
  cases x with
  | error fault => exact fun _ h => hx _ (by cases h; rfl)
  | ok a => exact hf a

theorem OnlyMalformed.error {α : Type} (f : PrecisionFault) :
    OnlyMalformed (.error (.invalidPrecision f) : Except Fault α) := by
  rintro _ ⟨⟩
  exact ⟨f, rfl⟩

theorem OnlyMalformed.ok {α : Type} (a : α) : OnlyMalformed (.ok a) := by
  rintro _ ⟨⟩

theorem onlyMalformed_modes (ms : List (List Char)) : OnlyMalformed (modes ms) := by
  match ms with
  | [] => exact .ok _
  | [_] => exact .bind (.demand _ _) fun _ => .ok _
  | [_, _] => exact .bind (.demand _ _) fun _ => .bind (.demand _ _) fun _ => .ok _
  | _ :: _ :: _ :: _ => exact .bind (.demand _ _) fun _ => .bind (.demand _ _) fun _ => .error _

theorem onlyMalformed_ofModes (width : Nat) (integer : Int) (isSigned : Bool)
    (rounding : Rounding) (overflow : Overflow) :
    OnlyMalformed (ofModes width integer isSigned rounding overflow) := by
  unfold ofModes
  split
  · split
    · exact .ok _
    · exact .error _
  · exact .error _

theorem onlyMalformed_parse (s : String) : OnlyMalformed (parse s) :=
  .bind (.demand _ _) fun _ => .bind (.demand _ _) fun _ => .bind (.demand _ _) fun _ =>
    .bind (.demand _ _) fun _ => .bind (.demand _ _) fun _ => .bind (onlyMalformed_modes _) fun _ =>
      onlyMalformed_ofModes _ _ _ _ _

/-- **Exactly the grammar is read.**  A text is read as a precision when it is that precision; any
other text is refused as a malformed precision. -/
theorem parse_outcome (s : String) :
    (∀ p, parse s = .ok p ↔ Written s.toList p) ∧
      ((¬ ∃ p, Written s.toList p) → ∃ fault, parse s = .error (.invalidPrecision fault)) := by
  refine ⟨fun p => parse_eq_ok_iff, fun hnone => ?_⟩
  cases h : parse s with
  | ok p => exact absurd ⟨p, parse_eq_ok_iff.mp h⟩ hnone
  | error fault =>
      obtain ⟨f, rfl⟩ := onlyMalformed_parse s fault h
      exact ⟨f, rfl⟩

/-- Blanks, a sign, a leading zero and a prefix make no difference. -/
example : (parse " ap_ufixed < +08,\t-3 , AC_RND> ").map spell = .ok "ufixed<8,-3,RND,WRAP>" := rfl

end Precision

end Depthwise
