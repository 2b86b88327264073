import Depthwise.Text.Blank
import Mathlib.Data.List.DropRight

/-!
# Trimmed texts

What trimming drops is blank (`eq_append_trim`), and of a core that neither begins nor ends with a
blank it drops nothing (`trim_append`).  So what is said of a trimmed text is said of the texts with
blanks around it (`trim_iff_between`).
-/

namespace Depthwise.Text

/-- There is nothing but blanks in `cs`. -/
def Blanks (cs : List Char) : Prop := ∀ c ∈ cs, isBlank c = true

/-- `cs` neither begins nor ends with a blank. -/
def Bare (cs : List Char) : Prop :=
  (∀ c ∈ cs.head?, isBlank c = false) ∧ ∀ c ∈ cs.getLast?, isBlank c = false

/-- A text of which `p` holds, with blanks around it. -/
def Between (p : List Char → Prop) (cs : List Char) : Prop :=
  ∃ front core back, Blanks front ∧ p core ∧ Blanks back ∧ cs = front ++ core ++ back

theorem blanks_nil : Blanks [] := fun _ hc => absurd hc List.not_mem_nil

theorem Blanks.append {front back : List Char} (hf : Blanks front) (hb : Blanks back) :
    Blanks (front ++ back) := by
  intro c hc
  rcases List.mem_append.mp hc with h | h
  · exact hf c h
  · exact hb c h

/-- A text with no blanks around it. -/
theorem Between.of {p : List Char → Prop} {cs : List Char} (h : p cs) : Between p cs :=
  ⟨[], cs, [], blanks_nil, h, blanks_nil, (List.append_nil _).symm⟩

theorem dropWhile_of_head? {cs : List Char} (h : ∀ c ∈ cs.head?, isBlank c = false) :
    cs.dropWhile isBlank = cs := by
  cases cs with
  | nil => rfl
  | cons c cs =>
      have hc : isBlank c = false := h c rfl
      rw [List.dropWhile_cons_of_neg (by simp [hc])]

theorem trimEnd_of_getLast? {cs : List Char} (h : ∀ c ∈ cs.getLast?, isBlank c = false) :
    trimEnd cs = cs := by
  rw [trimEnd, dropWhile_of_head? (by rwa [List.head?_reverse]), List.reverse_reverse]

theorem trimEnd_append {cs back : List Char} (hb : Blanks back) :
    trimEnd (cs ++ back) = trimEnd cs := by
  have hb' : ∀ c ∈ back.reverse, isBlank c = true := fun c hc => hb c (List.mem_reverse.mp hc)
  rw [trimEnd, List.reverse_append, List.dropWhile_append_of_pos hb', trimEnd]

/-- **Trimming finds the core**, whatever blanks are around it. -/
theorem trim_append {front core back : List Char} (hf : Blanks front) (hb : Blanks back)
    (hcore : Bare core) : trim (front ++ core ++ back) = core := by
  rw [List.append_assoc, trim, List.dropWhile_append_of_pos hf]
  cases core with
  | nil =>
      have hnil : back.dropWhile isBlank = [] := List.dropWhile_eq_nil_iff.mpr hb
      rw [List.nil_append, hnil]
      rfl
  | cons c cs =>
      have hhead : ∀ d ∈ (c :: cs ++ back).head?, isBlank d = false := hcore.1
      rw [dropWhile_of_head? hhead, trimEnd_append hb, trimEnd_of_getLast? hcore.2]

/-- **What trimming drops is blank.** -/
theorem eq_append_trim (cs : List Char) :
    ∃ front back, Blanks front ∧ Blanks back ∧ cs = front ++ trim cs ++ back := by
  refine ⟨cs.takeWhile isBlank, (cs.dropWhile isBlank).rtakeWhile isBlank,
    fun c hc => List.mem_takeWhile_imp hc, fun c hc => List.mem_rtakeWhile_imp hc, ?_⟩
  have hback : trim cs ++ (cs.dropWhile isBlank).rtakeWhile isBlank = cs.dropWhile isBlank :=
    List.rdropWhile_append_rtakeWhile
  rw [List.append_assoc, hback, List.takeWhile_append_dropWhile]

theorem trim_of_bare {cs : List Char} (h : Bare cs) : trim cs = cs := by
  rw [trim, dropWhile_of_head? h.1, trimEnd_of_getLast? h.2]

/-- A character that is no blank and not in the core is nowhere in the text. -/
theorem Between.not_mem {p : List Char → Prop} {c : Char} (hc : isBlank c = false)
    (hp : ∀ core, p core → c ∉ core) {cs : List Char} (h : Between p cs) : c ∉ cs := by
  obtain ⟨front, core, back, hf, hcore, hb, rfl⟩ := h
  have hblank : ∀ blanks, Blanks blanks → c ∉ blanks := fun blanks hblanks hmem =>
    Bool.false_ne_true (hc.symm.trans (hblanks c hmem))
  rw [List.mem_append, List.mem_append]
  rintro ((hmem | hmem) | hmem)
  · exact hblank front hf hmem
  · exact hp core hcore hmem
  · exact hblank back hb hmem

/-- A trimmed text is one with blanks around it. -/
theorem trim_iff_between {p : List Char → Prop} (hp : ∀ core, p core → Bare core)
    {cs : List Char} : p (trim cs) ↔ Between p cs := by
  constructor
  · intro h
    obtain ⟨front, back, hf, hb, heq⟩ := eq_append_trim cs
    exact ⟨front, trim cs, back, hf, h, hb, heq⟩
  · rintro ⟨front, core, back, hf, hcore, hb, rfl⟩
    rwa [trim_append hf hb (hp core hcore)]

/-- Trimming keeps what is between blanks. -/
theorem between_trim_iff {p : List Char → Prop} (hp : ∀ core, p core → Bare core)
    {cs : List Char} : Between p (trim cs) ↔ Between p cs := by
  constructor
  · rintro ⟨front, core, back, hf, hcore, hb, heq⟩
    obtain ⟨front', back', hf', hb', hcs⟩ := eq_append_trim cs
    refine ⟨front' ++ front, core, back ++ back', hf'.append hf, hcore, hb.append hb', ?_⟩
    rw [hcs, heq]
    simp only [List.append_assoc]
  · intro h
    have hcore := (trim_iff_between hp).mpr h
    exact ⟨[], trim cs, [], blanks_nil, hcore, blanks_nil, by simp⟩

end Depthwise.Text
