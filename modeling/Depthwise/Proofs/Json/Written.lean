import Depthwise.Fault
import Depthwise.Json.Decode
import Depthwise.Proofs.Json.Lexemes

/-!
# Written values

A value that is written is read as the value it is, if every integer in it is one of 64 bits
(`Value.Fits`); larger ones are read as reals.  Reading goes by fuel, and two calls for each
character of the text are enough.

* `Value.reads_of_fits`: where the text of a value stands, that value is read, and the rest is left.
* `ofText_render`: the text of a value reads as that value and as nothing else.
* `decode_render`: so what a decoder makes of the text is what it makes of the value.
-/

namespace Depthwise.Json

-- Powers are those of the core library, whatever else is imported.
attribute [local instance (high)] instPowNat

/-- Every integer in the value is one of 64 bits, with or without a sign. -/
inductive Value.Fits : Value → Prop
  | null : Fits .null
  | bool (b : Bool) : Fits (.bool b)
  | integer {n : Int} : -2 ^ (63 : Nat) ≤ n → n ≤ Numeral.gatherLimit → Fits (.integer n)
  | text (s : String) : Fits (.text s)
  | array {items : List Value} : (∀ v ∈ items, Fits v) → Fits (.array items)
  | object {members : List (String × Value)} : (∀ m ∈ members, Fits m.2) → Fits (.object members)

namespace Value

attribute [simp] Fits.null Fits.bool Fits.text

@[simp] theorem fits_integer_iff {n : Int} :
    (integer n).Fits ↔ -2 ^ (63 : Nat) ≤ n ∧ n ≤ Numeral.gatherLimit :=
  ⟨fun | .integer hlo hhi => ⟨hlo, hhi⟩, fun h => .integer h.1 h.2⟩

@[simp] theorem fits_array_iff {items : List Value} :
    (array items).Fits ↔ ∀ v ∈ items, v.Fits :=
  ⟨fun | .array h => h, .array⟩

@[simp] theorem fits_object_iff {members : List (String × Value)} :
    (object members).Fits ↔ ∀ m ∈ members, m.2.Fits :=
  ⟨fun | .object h => h, .object⟩

end Value

/-- Wherever the text of `v` stands, `v` is read, and the rest is left. -/
def Value.Reads (v : Value) : Prop :=
  ∀ fuel rest, Closes rest → 2 * v.chars.length ≤ fuel →
    readValue fuel (v.chars ++ rest) = ⟨v.reading, .ok rest⟩

/-! ### First characters -/

theorem skipBlanks_cons {c : Char} (hc : isBlank c = false) (cs : List Char) :
    skipBlanks (c :: cs) = c :: cs := by
  rw [skipBlanks, List.dropWhile_cons_of_neg (by simp [hc])]

theorem ne_of_isDigit {c d : Char} (hc : c.isDigit = true) (hd : d.isDigit = false) : c ≠ d := by
  rintro rfl
  cases hc.symm.trans hd

theorem isBlank_of_isDigit {c : Char} (hc : c.isDigit = true) : isBlank c = false := by
  have hne : ∀ d : Char, d.isDigit = false → c ≠ d := fun _ => ne_of_isDigit hc
  simp [isBlank, hne]

/-- The text of a value begins with no blank, and with no bracket that ends an array. -/
theorem exists_chars_eq_cons (v : Value) :
    ∃ c cs, v.chars = c :: cs ∧ isBlank c = false ∧ c ≠ ']' := by
  cases v with
  | null => exact ⟨_, _, rfl, by decide⟩
  | bool b => cases b <;> exact ⟨_, _, rfl, by decide⟩
  | integer n =>
      obtain ⟨c, cs, heq, rfl | hc⟩ := Numeral.exists_ofInt_eq_cons n
      · exact ⟨_, cs, heq, by decide⟩
      · exact ⟨c, cs, heq, isBlank_of_isDigit hc, ne_of_isDigit hc rfl⟩
  | text s => exact ⟨_, _, rfl, by decide⟩
  | array items => exact ⟨_, _, rfl, by decide⟩
  | object members => exact ⟨_, _, rfl, by decide⟩

theorem exists_itemChars_eq_cons (v : Value) (vs : List Value) :
    ∃ c cs, itemChars (v :: vs) = c :: cs ∧ isBlank c = false ∧ c ≠ ']' := by
  obtain ⟨c, cs, hcs, hc⟩ := exists_chars_eq_cons v
  cases vs with
  | nil => exact ⟨c, cs, hcs, hc⟩
  | cons w ws =>
      exact ⟨c, _, congrArg (· ++ ',' :: itemChars (w :: ws)) hcs, hc⟩

theorem exists_memberChars_eq_cons (m : String × Value) (ms : List (String × Value)) :
    ∃ cs, memberChars (m :: ms) = '"' :: cs := by
  cases ms <;> exact ⟨_, rfl⟩

/-- The text of a value is not empty, so reading it takes a call. -/
theorem Value.reads_of_succ {v : Value}
    (h : ∀ fuel rest, Closes rest → 2 * v.chars.length ≤ fuel + 1 →
      readValue (fuel + 1) (v.chars ++ rest) = ⟨v.reading, .ok rest⟩) : v.Reads := by
  intro fuel rest hrest hfuel
  obtain ⟨c, cs, hcs, -⟩ := exists_chars_eq_cons v
  obtain ⟨fuel, rfl⟩ : ∃ k, fuel = k + 1 :=
    ⟨fuel - 1, by rw [hcs, List.length_cons] at hfuel; omega⟩
  exact h fuel rest hrest hfuel

/-! ### Scalars -/

theorem readValue_number {c : Char} (hc : c = '-' ∨ c.isDigit = true) (fuel : Nat)
    (cs : List Char) : readValue (fuel + 1) (c :: cs) = readNumber (c :: cs) := by
  rcases hc with rfl | hc
  · rfl
  · rw [readValue, skipBlanks_cons (isBlank_of_isDigit hc)]
    simp only
    rw [if_neg (ne_of_isDigit hc rfl), if_neg (ne_of_isDigit hc rfl),
      if_neg (ne_of_isDigit hc rfl), if_pos (.inr hc)]

theorem Value.reads_integer {n : Int} (hlo : -2 ^ (63 : Nat) ≤ n)
    (hhi : n ≤ Numeral.gatherLimit) : (Value.integer n).Reads := by
  refine reads_of_succ fun fuel rest hrest _ => ?_
  obtain ⟨c, cs, heq, hc⟩ := Numeral.exists_ofInt_eq_cons n
  show readValue (fuel + 1) (Text.ofInt n ++ rest) = _
  rw [heq, List.cons_append, readValue_number hc, ← List.cons_append, ← heq, readNumber,
    Numeral.scan_ofInt hrest]
  simp only
  rw [Numeral.value_ofInt hlo hhi]
  rfl

theorem readText_quote (s : String) (rest : List Char) :
    readText (s.toList.flatMap escape ++ '"' :: rest) = ⟨.text (.ok s) none, .ok rest⟩ := by
  rw [readText, Quoted.scan_flatMap_escape]
  simp only [Except.map, String.ofList_toList, breakOf]

theorem Value.reads_text (s : String) : (Value.text s).Reads := by
  refine reads_of_succ fun fuel rest _ _ => ?_
  show readValue (fuel + 1) ('"' :: s.toList.flatMap escape ++ ['"'] ++ rest) = _
  rw [List.append_assoc, List.cons_append]
  exact readText_quote s rest

/-! ### Arrays -/

section Items

variable {v : Value} (hv : v.Reads) {fuel : Nat} {rest : List Char}
  (hfuel : 2 * v.chars.length ≤ fuel)

include hv hfuel

theorem readItems_last :
    readItems (fuel + 1) (v.chars ++ ']' :: rest) = ⟨[v.reading], .ok rest⟩ := by
  rw [readItems, hv fuel _ (closes_cons (by simp)) hfuel]
  rfl

theorem readItems_more :
    readItems (fuel + 1) (v.chars ++ ',' :: rest) =
      ⟨v.reading :: (readItems fuel rest).value, (readItems fuel rest).rest⟩ := by
  rw [readItems, hv fuel _ (closes_cons (by simp)) hfuel]
  rfl

end Items

/-- Items that are read one by one are read one after another, up to the closing bracket. -/
theorem readItems_itemChars {items : List Value} (hne : items ≠ []) (hitems : ∀ v ∈ items, v.Reads)
    {fuel : Nat} {rest : List Char} (hfuel : 2 * (itemChars items).length + 1 ≤ fuel) :
    readItems fuel (itemChars items ++ ']' :: rest) = ⟨itemReadings items, .ok rest⟩ := by
  induction items generalizing fuel with
  | nil => contradiction
  | cons v vs ih =>
      have hv := hitems v List.mem_cons_self
      obtain ⟨fuel, rfl⟩ : ∃ k, fuel = k + 1 := ⟨fuel - 1, by omega⟩
      cases vs with
      | nil =>
          rw [itemChars] at hfuel
          exact readItems_last hv (by omega)
      | cons w ws =>
          have hchars : itemChars (v :: w :: ws) = v.chars ++ ',' :: itemChars (w :: ws) := rfl
          rw [hchars, List.length_append, List.length_cons] at hfuel
          have hmore : readItems fuel (itemChars (w :: ws) ++ ']' :: rest) =
              ⟨itemReadings (w :: ws), .ok rest⟩ :=
            ih (by simp) (fun u hu => hitems u (List.mem_cons_of_mem v hu)) (by omega)
          rw [hchars, List.append_assoc, List.cons_append, readItems_more hv (by omega), hmore]
          rfl

theorem readValue_bracket {fuel : Nat} {c : Char} {cs : List Char} (hblank : isBlank c = false)
    (hc : c ≠ ']') :
    readValue (fuel + 1) ('[' :: c :: cs) =
      ⟨.array (readItems fuel (c :: cs)).value (breakOf (readItems fuel (c :: cs)).rest),
        (readItems fuel (c :: cs)).rest⟩ := by
  rw [readValue, skipBlanks_cons rfl]
  simp only [skipBlanks_cons hblank, Char.reduceEq, if_false, if_true, Char.reduceIsDigit,
    Bool.false_eq_true, or_self]
  split
  · contradiction
  · next heq => exact absurd (List.cons.inj heq).1 hc
  · rfl

theorem Value.reads_array {items : List Value} (h : ∀ v ∈ items, v.Reads) :
    (Value.array items).Reads := by
  refine reads_of_succ fun fuel rest _ hfuel => ?_
  cases items with
  | nil => rfl
  | cons v vs =>
      have hchars : (Value.array (v :: vs)).chars = '[' :: itemChars (v :: vs) ++ [']'] := rfl
      rw [hchars, List.length_append, List.length_cons, List.length_singleton] at hfuel
      have hread : readItems fuel (itemChars (v :: vs) ++ ']' :: rest) =
          ⟨itemReadings (v :: vs), .ok rest⟩ :=
        readItems_itemChars (List.cons_ne_nil v vs) h (by omega)
      obtain ⟨c, cs, hcs, hblank, hc⟩ := exists_itemChars_eq_cons v vs
      rw [hchars, List.append_assoc, List.cons_append, List.singleton_append]
      rw [hcs, List.cons_append] at hread ⊢
      rw [readValue_bracket hblank hc, hread]
      rfl

/-! ### Objects -/

section Members

variable {name : String} {v : Value} (hv : v.Reads) {fuel : Nat} {rest : List Char}
  (hfuel : 2 * v.chars.length ≤ fuel)

include hv hfuel

theorem readMembers_last :
    readMembers (fuel + 1) (quote name ++ ':' :: v.chars ++ '\x7d' :: rest) =
      ⟨[(.text (.ok name) none, v.reading)], .ok rest⟩ := by
  have hread := hv fuel ('\x7d' :: rest) (closes_cons (by simp)) hfuel
  rw [quote, List.append_assoc, List.append_assoc, List.cons_append, readMembers,
    skipBlanks_cons rfl]
  simp only [List.cons_append, List.nil_append, readText_quote, Except.map,
    skipBlanks_cons (c := ':') rfl, hread, skipBlanks_cons (c := '\x7d') rfl]

theorem readMembers_more :
    readMembers (fuel + 1) (quote name ++ ':' :: v.chars ++ ',' :: rest) =
      ⟨(.text (.ok name) none, v.reading) :: (readMembers fuel rest).value,
        (readMembers fuel rest).rest⟩ := by
  have hread := hv fuel (',' :: rest) (closes_cons (by simp)) hfuel
  rw [quote, List.append_assoc, List.append_assoc, List.cons_append, readMembers,
    skipBlanks_cons rfl]
  simp only [List.cons_append, List.nil_append, readText_quote, Except.map,
    skipBlanks_cons (c := ':') rfl, hread, skipBlanks_cons (c := ',') rfl]

end Members

/-- Members whose values are read are read one after another, up to the closing brace. -/
theorem readMembers_memberChars {members : List (String × Value)} (hne : members ≠ [])
    (hmembers : ∀ m ∈ members, m.2.Reads) {fuel : Nat} {rest : List Char}
    (hfuel : 2 * (memberChars members).length + 1 ≤ fuel) :
    readMembers fuel (memberChars members ++ '\x7d' :: rest) =
      ⟨memberReadings members, .ok rest⟩ := by
  induction members generalizing fuel with
  | nil => contradiction
  | cons m ms ih =>
      obtain ⟨name, v⟩ := m
      have hv : v.Reads := hmembers (name, v) List.mem_cons_self
      obtain ⟨fuel, rfl⟩ : ∃ k, fuel = k + 1 := ⟨fuel - 1, by omega⟩
      cases ms with
      | nil =>
          rw [memberChars, List.length_append, List.length_cons] at hfuel
          exact readMembers_last hv (by omega)
      | cons n ns =>
          have hchars : memberChars ((name, v) :: n :: ns) =
              quote name ++ ':' :: v.chars ++ ',' :: memberChars (n :: ns) := rfl
          rw [hchars, List.length_append, List.length_append, List.length_cons,
            List.length_cons] at hfuel
          have hmore : readMembers fuel (memberChars (n :: ns) ++ '\x7d' :: rest) =
              ⟨memberReadings (n :: ns), .ok rest⟩ :=
            ih (by simp) (fun u hu => hmembers u (List.mem_cons_of_mem _ hu)) (by omega)
          rw [hchars, List.append_assoc, List.cons_append, readMembers_more hv (by omega), hmore]
          rfl

theorem Value.reads_object {members : List (String × Value)} (h : ∀ m ∈ members, m.2.Reads) :
    (Value.object members).Reads := by
  refine reads_of_succ fun fuel rest _ hfuel => ?_
  cases members with
  | nil => rfl
  | cons m ms =>
      have hchars : (Value.object (m :: ms)).chars = '\x7b' :: memberChars (m :: ms) ++ ['\x7d'] :=
        rfl
      rw [hchars, List.length_append, List.length_cons, List.length_singleton] at hfuel
      have hread : readMembers fuel (memberChars (m :: ms) ++ '\x7d' :: rest) =
          ⟨memberReadings (m :: ms), .ok rest⟩ :=
        readMembers_memberChars (List.cons_ne_nil m ms) h (by omega)
      have hbrace : ∀ cs, readValue (fuel + 1) ('\x7b' :: '"' :: cs) =
          ⟨.object (readMembers fuel ('"' :: cs)).value (breakOf (readMembers fuel ('"' :: cs)).rest),
            (readMembers fuel ('"' :: cs)).rest⟩ := fun _ => rfl
      obtain ⟨cs, hcs⟩ := exists_memberChars_eq_cons m ms
      rw [hchars, List.append_assoc, List.cons_append, List.singleton_append]
      rw [hcs, List.cons_append] at hread ⊢
      rw [hbrace, hread]
      rfl

/-! ### Whole texts -/

/-- **What is written is read.** -/
theorem Value.reads_of_fits {v : Value} (h : v.Fits) : v.Reads := by
  induction h with
  | null => exact reads_of_succ fun _ _ _ _ => rfl
  | bool b => cases b <;> exact reads_of_succ fun _ _ _ _ => rfl
  | integer hlo hhi => exact reads_integer hlo hhi
  | text s => exact reads_text s
  | array _ ih => exact reads_array ih
  | object _ ih => exact reads_object ih

theorem ofText_render {v : Value} (h : v.Fits) :
    Reading.ofText v.render = ⟨v.reading, .ok []⟩ := by
  have hread := Value.reads_of_fits h (2 * v.chars.length + 2) [] closes_nil (by omega)
  rw [List.append_nil] at hread
  rwa [Reading.ofText, Value.render, String.toList_ofList]

/-- A text is decoded when its value is read and nothing but blanks come behind it. -/
theorem decode_eq_ok_iff {α : Type} {read : Reading → Except ReadFault α} {s : String} {a : α} :
    decode read s = .ok a ↔
      read (Reading.ofText s).value = .ok a ∧
        ∃ rest, (Reading.ofText s).rest = .ok rest ∧ skipBlanks rest = [] := by
  rw [decode, bind_eq_ok]
  cases (Reading.ofText s).rest with
  | error b => simp
  | ok rest => by_cases hrest : skipBlanks rest = [] <;> simp [hrest, pure, Except.pure]

theorem decode_render {α : Type} (read : Reading → Except ReadFault α) {v : Value} (h : v.Fits) :
    decode read v.render = read v.reading := by
  rw [decode, ofText_render h]
  cases read v.reading <;> rfl

end Depthwise.Json
