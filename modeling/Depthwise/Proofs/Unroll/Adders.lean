import Depthwise.Proofs.Integer.Layer
import Depthwise.Unroll
import Mathlib.Data.List.Perm.Basic

/-!
# Adder trees

Where a plan reports a tree, the terms of a slot may be summed in any association and in any order:
an adder tree (`AdderTree`) over the seeded bias and the widened products, however they are
arranged, has the value of the slot.

* `eval_eq_foldl`: under an addition that is associative and has a zero, the value of a tree is the
  fold over its terms; if the addition is commutative, their order is free too.
* `Kind.sumsFreely`: the addition of integers of 32 and of 64 bits wraps around and has these laws.
* `Config.eval_adderTree`: it is these that have a tree, and every tree over the terms of a slot has
  the value the kernel finds.
-/

namespace Depthwise

/-! ### Trees -/

/-- Terms added in pairs. -/
inductive AdderTree (A : Type) where
  | term (a : A)
  | add (left right : AdderTree A)

namespace AdderTree

variable {A : Type}

/-- The terms from left to right. -/
def terms : AdderTree A → List A
  | term a => [a]
  | add left right => left.terms ++ right.terms

/-- The value at the root, under an addition. -/
def eval (plus : A → A → A) : AdderTree A → A
  | term a => a
  | add left right => plus (left.eval plus) (right.eval plus)

variable {plus : A → A → A} (zero : A) [Std.Associative plus] [Std.LawfulIdentity plus zero]

/-- The association of the terms is free. -/
theorem eval_eq_foldl (t : AdderTree A) : t.eval plus = t.terms.foldl plus zero := by
  have hleft (a : A) : plus zero a = a := Std.LawfulLeftIdentity.left_id a
  have hright (a : A) : plus a zero = a := Std.LawfulRightIdentity.right_id a
  induction t with
  | term a => exact (hleft a).symm
  | add left right ihl ihr =>
      calc plus (left.eval plus) (right.eval plus)
        _ = plus (left.terms.foldl plus zero) (right.terms.foldl plus zero) := by rw [ihl, ihr]
        _ = right.terms.foldl plus (plus (left.terms.foldl plus zero) zero) :=
            List.foldl_assoc.symm
        _ = (left.terms ++ right.terms).foldl plus zero := by rw [hright, List.foldl_append]

include zero in
/-- So is their order. -/
theorem eval_eq_foldl_of_perm [Std.Commutative plus] {t : AdderTree A} {a : A} {l : List A}
    (h : t.terms.Perm (a :: l)) : t.eval plus = l.foldl plus a := by
  have hleft : plus zero a = a := Std.LawfulLeftIdentity.left_id a
  rw [eval_eq_foldl zero, h.foldl_op_eq, List.foldl_cons, hleft]

end AdderTree

/-! ### Accumulators -/

/-- The addition of an integer type that accumulates, which wraps around. -/
def Element.plus? : (e : Element) → Option (e.Value → e.Value → e.Value)
  | .int32 => some fun a b => a + b
  | .int64 => some fun a b => a + b
  | _ => none

namespace Accumulator

/-- An accumulator of widened biases and products whose terms may be arranged freely. -/
structure SumsFreely {B P A : Type} (acc : Accumulator B P A) (plus : A → A → A) (seed : B → A)
    (widen : P → A) : Prop where
  seed_eq : acc.seed = seed
  accumulate_eq : ∀ a p, acc.accumulate a p = plus a (widen p)
  eval_eq_foldl : ∀ (t : AdderTree A) (a : A) (l : List A), t.terms.Perm (a :: l) →
    t.eval plus = l.foldl plus a

theorem sumsFreely_native {B P A : Type} [Add A] (zero : A)
    [Std.Associative fun a b : A => a + b] [Std.Commutative fun a b : A => a + b]
    [Std.LawfulIdentity (fun a b : A => a + b) zero] (ordered : Bool) (f : B → A) (g : P → A) :
    (native ordered f g).SumsFreely (fun a b => a + b) f g where
  seed_eq := rfl
  accumulate_eq _ _ := rfl
  eval_eq_foldl _ _ _ := AdderTree.eval_eq_foldl_of_perm zero

/-- A tree over the terms of a slot has its value. -/
theorem SumsFreely.eval_eq_slot {B P A : Type} {acc : Accumulator B P A} {plus : A → A → A}
    {seed : B → A} {widen : P → A} (h : acc.SumsFreely plus seed widen) {bias : B}
    {products : List P} {t : AdderTree A} (ht : t.terms.Perm (seed bias :: products.map widen)) :
    t.eval plus = products.foldl acc.accumulate (acc.seed bias) := by
  rw [h.eval_eq_foldl t _ _ ht, List.foldl_map, h.seed_eq]
  congr
  funext a p
  exact (h.accumulate_eq a p).symm

/-- The terms of machine integers may be arranged freely. -/
theorem Kind.sumsFreely {kind : Kind} {b p : Element} {acc : Typed b p}
    (h : kind.typed? b p = some acc) (hkind : kind = .number .int32 ∨ kind = .number .int64) :
    ∃ plus seed widen, acc.result.plus? = some plus ∧ b.widen? acc.result = some seed ∧
      p.widen? acc.result = some widen ∧ acc.accumulator.SumsFreely plus seed widen := by
  cases makes_of_typed? h with
  | single | double | precision => simp at hkind
  | int32 hseed hwiden =>
      exact ⟨_, _, _, rfl, hseed, hwiden, sumsFreely_native (0 : Int32) false _ _⟩
  | int64 hseed hwiden =>
      exact ⟨_, _, _, rfl, hseed, hwiden, sumsFreely_native (0 : Int64) false _ _⟩

end Accumulator

theorem UnrollPlan.reduction_eq_tree {g : Geometry} {orderSensitive : Bool} :
    (make g orderSensitive).reduction = .tree ↔ orderSensitive = false := by
  cases orderSensitive <;> simp [make]

/-- **Where the plan is a tree, a tree is allowed.**  Of the accumulators there are, exactly those of
machine integers have a tree for their plan.  A tree over a seeded bias and any widened products,
however they are arranged, then has the value of accumulating the products in order; and every output
element is the cast of any tree over the bias and the products of its window. -/
theorem Config.eval_adderTree {kind : Accumulator.Kind} {b p a : Element}
    (hadmits : kind.Admits b p a) :
    ∃ acc : Accumulator b.Value p.Value a.Value, kind.typed? b p = some ⟨a, acc⟩ ∧
      ∀ {D W O : Type} (cfg : Config D W p.Value b.Value a.Value O), cfg.accumulator = acc →
        let plan := UnrollPlan.make cfg.geometry cfg.accumulator.orderSensitive
        (plan.reduction = .tree ↔ kind = .number .int32 ∨ kind = .number .int64) ∧
        (plan.reduction = .tree →
          ∃ plus seed widen, a.plus? = some plus ∧ b.widen? a = some seed ∧
            p.widen? a = some widen ∧
            (∀ (bias : b.Value) (products : List p.Value) (t : AdderTree a.Value),
              t.terms.Perm (seed bias :: products.map widen) → t.eval plus =
                products.foldl cfg.accumulator.accumulate (cfg.accumulator.seed bias)) ∧
            ∀ (input : Array D) (weights : Array W) (biases : Array b.Value) (output : Array O),
              cfg.geometry.checkOperands input.size weights.size biases.size output.size = .ok () →
              ∀ h w c dm, h < cfg.geometry.rows.out → w < cfg.geometry.cols.out →
                c < cfg.geometry.channels → dm < cfg.geometry.depthMultiplier →
                ∃ bias products, biases[c * cfg.geometry.depthMultiplier + dm]? = some bias ∧
                  (cfg.geometry.window.filter (cfg.geometry.Covers h w)).mapM
                    (cfg.product? input weights h w c dm) = some products ∧
                  ∀ t : AdderTree a.Value, t.terms.Perm (seed bias :: products.map widen) →
                    (cfg.compute input weights biases output).output[
                      cfg.geometry.outputOffset h w c dm]? = some (cfg.cast (t.eval plus))) := by
  obtain ⟨acc, hacc⟩ := Accumulator.Kind.exists_typed?_iff.mpr hadmits
  refine ⟨acc, hacc, fun {D W O} cfg hcfg => ?_⟩
  have hkind : (UnrollPlan.make cfg.geometry cfg.accumulator.orderSensitive).reduction = .tree ↔
      kind = .number .int32 ∨ kind = .number .int64 := by
    rw [UnrollPlan.reduction_eq_tree, hcfg, ← Accumulator.Kind.orderSensitive_eq_false_iff,
      ← Accumulator.Kind.orderSensitive_typed? hacc]
  refine ⟨hkind, fun hplan => ?_⟩
  obtain ⟨plus, seed, widen, hplus, hseed, hwiden, hsums⟩ :=
    Accumulator.Kind.sumsFreely hacc (hkind.mp hplan)
  rw [← hcfg] at hsums
  refine ⟨plus, seed, widen, hplus, hseed, hwiden, fun _ _ _ => hsums.eval_eq_slot, ?_⟩
  intro input weights biases output lens h w c dm hh hw hc hd
  let r : Replica cfg.geometry := ⟨⟨h, hh⟩, ⟨w, hw⟩, ⟨c, hc⟩, ⟨dm, hd⟩⟩
  let x := cfg.operands lens
  refine ⟨x.bias r.c r.dm, cfg.products x r, x.getElem?_bias r.c r.dm, cfg.mapM_product? x r, ?_⟩
  intro t ht
  rw [hsums.eval_eq_slot ht]
  exact cfg.getElem?_compute lens r

/-- The layer that overhangs and wraps, at depth 1 of pixel `(1, 1)`: both products of its window
are added before the bias, and the sum wraps around as it does in order. -/
theorem Config.eval_adderTree_overhanging :
    (UnrollPlan.make Geometry.overhanging false).reduction = .tree ∧
      Geometry.overhanging.checkOperands 4 12 2 8 = .ok () ∧
      (Config.overhanging.compute (Array.replicate 4 32767) (Array.replicate 12 (-32768))
        (Array.replicate 2 (-65537)) (Array.replicate 8 0)).output[7]? =
          some ((-1073709056 : Int32) + -1073709056 + -65537) := by
  have lens : Geometry.overhanging.checkOperands (Array.replicate 4 (32767 : Int16)).size
      (Array.replicate 12 (-32768 : Int16)).size (Array.replicate 2 (-65537 : Int32)).size
      (Array.replicate 8 (0 : Int32)).size = .ok () := rfl
  have hadmits : (Accumulator.Kind.number .int32).Admits .int32 .int32 .int32 :=
    .number (by decide) (by decide) (by decide)
  obtain ⟨acc, hacc, hcfg⟩ := Config.eval_adderTree hadmits
  cases hacc
  obtain ⟨hreduction, hall⟩ := hcfg Config.overhanging rfl
  have hplan : (UnrollPlan.make Geometry.overhanging false).reduction = .tree :=
    hreduction.mpr (.inl rfl)
  obtain ⟨plus, seed, widen, hplus, hseed, hwiden, -, hout⟩ := hall hplan
  obtain ⟨bias, products, hbias, hproducts, htree⟩ :=
    hout _ _ _ _ lens 1 1 0 1 (by decide) (by decide) (by decide) (by decide)
  obtain rfl := Option.some.inj hplus
  obtain rfl := Option.some.inj hseed
  obtain rfl := Option.some.inj hwiden
  obtain rfl : -65537 = bias := Option.some.inj hbias
  have hproduct : some [-1073709056, -1073709056] = some products :=
    Eq.trans (by decide +kernel) hproducts
  obtain rfl := Option.some.inj hproduct
  refine ⟨hplan, lens, htree (.add (.add (.term _) (.term _)) (.term _)) ?_⟩
  show [-1073709056, -1073709056, -65537].Perm [-65537, -1073709056, (-1073709056 : Int32)]
  decide

end Depthwise
