import Depthwise.Numerics.Accumulator
import Depthwise.Numerics.Product

/-!
# Signatures

A widening, a product and an accumulator are there for some element types and for no others.  Which
these are is written down here as tables of types, apart from the values: what types a type holds
(`Element.holds`), what a scheme multiplies and into what (`Scheme.signatures`), and what an
accumulator sums and in what (`Accumulator.Kind.Admits`).

* `Element.exists_widen?_iff`, `Scheme.exists_product?_iff`, `Accumulator.Kind.exists_typed?_iff`:
  there is a widening, a product, an accumulator exactly where the table has one.
* `Accumulator.Kind.makes_of_typed?`: what the accumulators are, of which there are five.
* `Accumulator.Kind.orderSensitive_typed?`: whether the order of the products matters is told by the
  name of an accumulator already; `Accumulator.Kind.orderSensitive_eq_false_iff`: it is free in
  machine integers and nowhere else.
-/

namespace Depthwise

/-! ### Widenings -/

/-- The types whose every value is one of the type `e`. -/
def Element.holds : (e : Element) → List Element
  | single => [single, int8, uint8, int16, bool]
  | double => [single, double, int8, uint8, int16, int32, bool]
  | int8 => [int8]
  | uint8 => [uint8]
  | int16 => [int8, uint8, int16, bool]
  | int32 => [int8, uint8, int16, int32, bool]
  | int64 => [int8, uint8, int16, int32, int64, bool]
  | bool => [bool]
  | fixed => [fixed]
  | power => [power]

/-- There is a widening into the types that hold every value, and into no other. -/
theorem Element.exists_widen?_iff {src dst : Element} :
    (∃ f, src.widen? dst = some f) ↔ src ∈ dst.holds := by
  rw [← Option.isSome_iff_exists]
  cases dst <;> cases src <;> decide

/-! ### Products -/

namespace Scheme

/-- What a sign may be put on: the type of an operand that is kept or negated, and of the product. -/
def signables : List (Element × Element) :=
  [(.single, .single), (.double, .double), (.int8, .int32), (.int16, .int32), (.fixed, .fixed)]

/-- What a scheme multiplies: the types of a sample, of a weight and of their product. -/
def signatures : Scheme → List (Element × Element × Element)
  | plain =>
    [(.single, .single, .single), (.double, .double, .double), (.int8, .int8, .int32),
      (.uint8, .int8, .int32), (.int16, .int16, .int32), (.int32, .int32, .int64),
      (.fixed, .fixed, .fixed)]
  | binaryWeight => signables.map fun (d, p) => (d, .bool, p)
  | binaryData => signables.map fun (w, p) => (.bool, w, p)
  | ternaryWeight => signables.map fun (d, p) => (d, .int8, p)
  | bothBinary => [(.bool, .bool, .int32)]
  | exponentialWeight =>
    [(.single, .power, .single), (.double, .power, .double), (.fixed, .power, .fixed)]

variable {s : Scheme} {d w p : Element}

theorem mem_signatures {t : Typed d w} (h : s.product? d w = some t) :
    (d, w, t.result) ∈ s.signatures := by
  cases s <;>
    simp only [product?, plain?, binaryWeight?, binaryData?, ternaryWeight?,
      exponentialWeight?] at h <;>
    split at h <;> cases h <;> decide

theorem map_result_product? (h : (d, w, p) ∈ s.signatures) :
    (s.product? d w).map Typed.result = some p := by
  have hrows : ∀ row ∈ s.signatures,
      (s.product? row.1 row.2.1).map Typed.result = some row.2.2 := by cases s <;> decide
  exact hrows _ h

/-- **There is a product of the signatures of a scheme**, and of no other types. -/
theorem exists_product?_iff :
    (∃ product, s.product? d w = some ⟨p, product⟩) ↔ (d, w, p) ∈ s.signatures := by
  constructor
  · rintro ⟨product, h⟩
    exact mem_signatures h
  · intro h
    obtain ⟨t, ht, rfl⟩ := Option.map_eq_some_iff.mp (map_result_product? h)
    exact ⟨t.product, ht⟩

end Scheme

/-! ### Accumulators -/

namespace Accumulator.Kind

/-- The accumulators of each kind: sums in a number type, of what widens into it, and exact sums
stored in a precision. -/
inductive Makes : (kind : Kind) → {b p : Element} → Typed b p → Prop where
  | single {b p : Element} {seed : b.Value → Float32} {widen : p.Value → Float32} :
      b.widen? .single = some seed → p.widen? .single = some widen →
        Makes (.number .single) ⟨.single, native true seed widen⟩
  | double {b p : Element} {seed : b.Value → Float} {widen : p.Value → Float} :
      b.widen? .double = some seed → p.widen? .double = some widen →
        Makes (.number .double) ⟨.double, native true seed widen⟩
  | int32 {b p : Element} {seed : b.Value → Int32} {widen : p.Value → Int32} :
      b.widen? .int32 = some seed → p.widen? .int32 = some widen →
        Makes (.number .int32) ⟨.int32, native false seed widen⟩
  | int64 {b p : Element} {seed : b.Value → Int64} {widen : p.Value → Int64} :
      b.widen? .int64 = some seed → p.widen? .int64 = some widen →
        Makes (.number .int64) ⟨.int64, native false seed widen⟩
  | precision (q : Precision) : Makes (.precision q) (b := .fixed) (p := .fixed) ⟨.fixed, stored q⟩

/-- `kind.Admits b p a`: an accumulator of that kind takes biases of type `b` and products of type
`p` and has sums of type `a`. -/
inductive Admits : Kind → Element → Element → Element → Prop where
  | number {e b p : Element} : e ∈ [.single, .double, .int32, .int64] → b ∈ e.holds → p ∈ e.holds →
      Admits (.number e) b p e
  | precision (q : Precision) : Admits (.precision q) .fixed .fixed .fixed

variable {kind : Kind} {b p a : Element} {acc : Typed b p}

theorem makes_of_typed? (h : kind.typed? b p = some acc) : kind.Makes acc := by
  cases kind with
  | number e =>
      cases e with
      | single | double | int32 | int64 =>
          obtain ⟨seed, hseed, h⟩ := Option.bind_eq_some_iff.mp h
          obtain ⟨widen, hwiden, h⟩ := Option.bind_eq_some_iff.mp h
          cases h
          constructor <;> assumption
      | int8 | uint8 | int16 | bool | fixed | power => cases h
  | precision q =>
      simp only [typed?] at h
      split at h
      · cases h
        exact .precision q
      · cases h

theorem Makes.admits (h : kind.Makes acc) : kind.Admits b p acc.result := by
  cases h with
  | single hseed hwiden | double hseed hwiden | int32 hseed hwiden | int64 hseed hwiden =>
      exact .number (by decide) (Element.exists_widen?_iff.mp ⟨_, hseed⟩)
        (Element.exists_widen?_iff.mp ⟨_, hwiden⟩)
  | precision q => exact .precision q

/-- **There is an accumulator of the types its kind admits**, and of no others. -/
theorem exists_typed?_iff :
    (∃ acc, kind.typed? b p = some ⟨a, acc⟩) ↔ kind.Admits b p a := by
  constructor
  · rintro ⟨acc, h⟩
    exact (makes_of_typed? h).admits
  · intro h
    cases h with
    | number ha hb hp =>
        obtain ⟨seed, hseed⟩ := Element.exists_widen?_iff.mpr hb
        obtain ⟨widen, hwiden⟩ := Element.exists_widen?_iff.mpr hp
        simp only [List.mem_cons, List.not_mem_nil, or_false] at ha
        rcases ha with rfl | rfl | rfl | rfl <;>
          exact ⟨_, Option.bind_eq_some_iff.mpr
            ⟨seed, hseed, Option.bind_eq_some_iff.mpr ⟨widen, hwiden, rfl⟩⟩⟩
    | precision q => exact ⟨_, rfl⟩

/-- The order of the products matters to an accumulator if it does to its kind. -/
theorem orderSensitive_typed? (h : kind.typed? b p = some acc) :
    acc.accumulator.orderSensitive = kind.orderSensitive := by
  cases makes_of_typed? h <;> rfl

/-- It is free in machine integers and nowhere else. -/
theorem orderSensitive_eq_false_iff :
    kind.orderSensitive = false ↔ kind = .number .int32 ∨ kind = .number .int64 := by
  constructor
  · intro h
    unfold orderSensitive at h
    split at h
    · exact .inl rfl
    · exact .inr rfl
    · cases h
  · rintro (rfl | rfl) <;> rfl

end Accumulator.Kind

end Depthwise
