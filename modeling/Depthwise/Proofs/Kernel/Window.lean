import Depthwise.Kernel
import Mathlib.Data.Int.Notation
import Mathlib.Data.List.FinRange
import Mathlib.Data.List.ProdSigma

/-!
# The window of an output element

Cell `k` of window `o` stands at the cell `o * stride + k - before` of the input, an integer: it is
negative in front of the input and too large behind it (`Span.place`, `Span.Covers`).  The window of
a layer is the grid of its cells, row by row (`Geometry.window`), and the taps the kernel visits are
the cells of the window that lie in the input, in the same order (`map_cell_taps`), each with the
input cell it stands at (`row_eq_place`, `col_eq_place`).

A sum over the whole window, with zeros at the cells that do not lie in the input, has the terms of
the taps and zeros between them (`Filled`).
-/

namespace Depthwise

/-- The rows of a grid that are kept, with the columns that are kept. -/
theorem filter_product {α β : Type} (p : α → Bool) (q : β → Bool) (l₁ : List α) (l₂ : List β) :
    (l₁ ×ˢ l₂).filter (fun k => p k.1 && q k.2) = l₁.filter p ×ˢ l₂.filter q := by
  induction l₁ with
  | nil => rfl
  | cons a l₁ ih =>
      rw [List.product_cons, List.filter_append, ih, List.filter_map]
      by_cases ha : p a
      · rw [List.filter_cons_of_pos ha, List.product_cons]
        simp [Function.comp_def, ha]
      · rw [List.filter_cons_of_neg ha]
        simp [Function.comp_def, ha]

/-- The entries of the second list stand for those of the first, with zeros between them. -/
inductive Filled {P N : Type} (zero : N) (stands : P → N → Prop) : List P → List N → Prop
  | nil : Filled zero stands [] []
  | read {p : P} {n : N} {ps : List P} {ns : List N} :
      stands p n → Filled zero stands ps ns → Filled zero stands (p :: ps) (n :: ns)
  | skip {ps : List P} {ns : List N} :
      Filled zero stands ps ns → Filled zero stands ps (zero :: ns)

/-- All items of a list, those that are not covered being zero, against those that are. -/
theorem mapM_filled {α P N : Type} {covered : α → Prop} [DecidablePred covered]
    {read : α → Option P} {whole : α → Option N} {zero : N} {stands : P → N → Prop} (l : List α)
    (hread : ∀ k ∈ l, covered k → ∀ p, read k = some p → ∃ n, whole k = some n ∧ stands p n)
    (hskip : ∀ k ∈ l, ¬ covered k → whole k = some zero) {ps : List P}
    (h : (l.filter covered).mapM read = some ps) :
    ∃ ns, l.mapM whole = some ns ∧ Filled zero stands ps ns := by
  induction l generalizing ps with
  | nil =>
      obtain rfl : [] = ps := by simpa using h
      exact ⟨[], rfl, .nil⟩
  | cons k l ih =>
      have hread' := fun a ha => hread a (List.mem_cons_of_mem k ha)
      have hskip' := fun a ha => hskip a (List.mem_cons_of_mem k ha)
      by_cases hk : covered k
      · rw [List.filter_cons_of_pos (by simpa using hk), List.mapM_cons] at h
        obtain ⟨p, hp, h⟩ := Option.bind_eq_some_iff.mp h
        obtain ⟨ps, htail, hcons⟩ := Option.bind_eq_some_iff.mp h
        obtain rfl := Option.some.inj hcons
        obtain ⟨n, hn, hstands⟩ := hread k List.mem_cons_self hk p hp
        obtain ⟨ns, hns, hfilled⟩ := ih hread' hskip' htail
        refine ⟨n :: ns, ?_, .read hstands hfilled⟩
        rw [List.mapM_cons, hn, hns]
        rfl
      · rw [List.filter_cons_of_neg (by simpa using hk)] at h
        obtain ⟨ns, hns, hfilled⟩ := ih hread' hskip' h
        refine ⟨zero :: ns, ?_, .skip hfilled⟩
        rw [List.mapM_cons, hskip k List.mem_cons_self hk, hns]
        rfl

namespace Span

variable (s : Span)

/-- The input cell at which cell `k` of window `o` stands, as an integer. -/
def place (o k : Nat) : ℤ := o * s.stride + k - s.before

/-- Cell `k` of window `o` lies in the input. -/
def Covers (o k : Nat) : Prop := 0 ≤ s.place o k ∧ s.place o k < s.input

instance (o k : Nat) : Decidable (s.Covers o k) := inferInstanceAs (Decidable (_ ∧ _))

variable {s}

theorem tap?_eq_some_iff_place {o k : Nat} {i : Fin s.input} :
    s.tap? o k = some i ↔ s.place o k = i := by
  rw [tap?_eq_some, place]
  omega

theorem place_eq_of_tap? {o k : Nat} {i : Fin s.input} (h : s.tap? o k = some i) :
    (s.place o k).toNat = i := by
  rw [tap?_eq_some_iff_place.mp h, Int.toNat_natCast]

/-- The cells of a window that lie in the input are its taps. -/
theorem covers_iff_exists_tap? {o k : Nat} : s.Covers o k ↔ ∃ i, s.tap? o k = some i := by
  simp only [tap?_eq_some_iff_place, Covers]
  refine ⟨fun ⟨h₀, h⟩ => ⟨⟨(s.place o k).toNat, by omega⟩, (Int.toNat_of_nonneg h₀).symm⟩, ?_⟩
  rintro ⟨i, hi⟩
  have := i.isLt
  omega

theorem tap?_eq_none_iff {o k : Nat} : s.tap? o k = none ↔ ¬ s.Covers o k := by
  rw [covers_iff_exists_tap?, ← Option.ne_none_iff_exists', not_not]

theorem map_taps (s : Span) (o : Nat) :
    (s.taps o).map (fun t => (t.1 : Nat)) = (List.range s.filt).filter (s.Covers o) := by
  have hcell (k : Fin s.filt) :
      ((s.tap? o k).map fun cell => (k, cell)).map (fun t => (t.1 : Nat)) =
        Option.guard (fun k => s.Covers o k) (k : Nat) := by
    by_cases hk : s.Covers o k
    · obtain ⟨i, hi⟩ := covers_iff_exists_tap?.mp hk
      simp [hi, Option.guard, hk]
    · simp [tap?_eq_none_iff.mpr hk, Option.guard, hk]
  simp only [taps, List.map_filterMap, hcell]
  rw [← List.map_coe_finRange_eq_range, ← List.filterMap_eq_filter, List.filterMap_map]
  rfl

end Span

/-- The window cell of a tap. -/
def Tap.cell {g : Geometry} (t : Tap g) : Nat × Nat := (t.kh, t.kw)

namespace Geometry

variable (g : Geometry)

/-- The cells of a window, row by row. -/
def window : List (Nat × Nat) := List.range g.rows.filt ×ˢ List.range g.cols.filt

/-- Cell `k` of the window at `(h, w)` lies in the input. -/
def Covers (h w : Nat) (k : Nat × Nat) : Prop := g.rows.Covers h k.1 ∧ g.cols.Covers w k.2

instance (h w : Nat) (k : Nat × Nat) : Decidable (g.Covers h w k) :=
  inferInstanceAs (Decidable (_ ∧ _))

variable {g}

theorem mem_window {k : Nat × Nat} : k ∈ g.window ↔ k.1 < g.rows.filt ∧ k.2 < g.cols.filt := by
  rw [window, List.mem_product, List.mem_range, List.mem_range]

theorem length_window (g : Geometry) : g.window.length = g.rows.filt * g.cols.filt := by
  rw [window, List.length_product, List.length_range, List.length_range]

/-- **The taps are the cells of the window that lie in the input**, in the order of the window. -/
theorem map_cell_taps (h w : Nat) :
    (g.taps h w).map Tap.cell = g.window.filter (g.Covers h w) := by
  have hprod : (g.taps h w).map Tap.cell =
      (g.rows.taps h).map (fun t => (t.1 : Nat)) ×ˢ (g.cols.taps w).map (fun t => (t.1 : Nat)) := by
    simp only [taps, List.map_flatMap, List.map_map]
    simp only [SProd.sprod, List.product, List.flatMap_map, List.map_map]
    rfl
  rw [hprod, Span.map_taps, Span.map_taps, ← filter_product]
  exact List.filter_congr fun k _ =>
    (Bool.decide_and (g.rows.Covers h k.1) (g.cols.Covers w k.2)).symm

theorem mem_taps {h w : Nat} {t : Tap g} (ht : t ∈ g.taps h w) :
    g.rows.tap? h t.kh = some t.row ∧ g.cols.tap? w t.kw = some t.col := by
  simp only [taps, Span.taps, List.mem_flatMap, List.mem_map, List.mem_filterMap,
    Option.map_eq_some_iff] at ht
  obtain ⟨_, ⟨_, -, _, hr, rfl⟩, _, ⟨_, -, _, hq, rfl⟩, rfl⟩ := ht
  exact ⟨hr, hq⟩

theorem row_eq_place {h w : Nat} {t : Tap g} (ht : t ∈ g.taps h w) :
    (g.rows.place h t.kh).toNat = t.row :=
  Span.place_eq_of_tap? (mem_taps ht).1

theorem col_eq_place {h w : Nat} {t : Tap g} (ht : t ∈ g.taps h w) :
    (g.cols.place w t.kw).toNat = t.col :=
  Span.place_eq_of_tap? (mem_taps ht).2

end Geometry

end Depthwise
