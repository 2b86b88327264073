import Depthwise.Proofs.Kernel.Refusals

/-!
# Products that can be exchanged

Two products are interchangeable for an accumulator when neither changes any sum otherwise than the
other does (`Accumulator.Interchanges`).  They need not be equal: what is asked is asked of the
values the accumulator takes (`Accumulator.Reaches`), and those of a precision are stored ones.  A
run consists of such values (`Accumulator.reaches_of_mem_run`).

`Config.compute_of_interchanges`: a kernel whose products are interchangeable, one by one, with
those of other operands leaves the same run.
-/

namespace Depthwise

namespace Accumulator

variable {B P A T : Type} (acc : Accumulator B P A)

/-- The values an accumulator takes. -/
inductive Reaches : A → Prop
  | seed (b : B) : Reaches (acc.seed b)
  | accumulate {a : A} (p : P) : Reaches a → Reaches (acc.accumulate a p)

section Runs

variable {acc}

theorem Reaches.foldl {a : A} (ha : acc.Reaches a) (products : List P) :
    acc.Reaches (products.foldl acc.accumulate a) := by
  induction products generalizing a with
  | nil => exact ha
  | cons p products ih => exact ih (ha.accumulate p)

theorem Reaches.of_mem_go {a b : A} (ha : acc.Reaches a) {products : List P}
    (h : b ∈ run.go acc a products) : acc.Reaches b := by
  induction products generalizing a with
  | nil => exact List.mem_singleton.mp h ▸ ha
  | cons p products ih =>
      rcases List.mem_cons.mp h with rfl | hrest
      · exact ha
      · exact ih (ha.accumulate p) hrest

/-- A run consists of values the accumulator takes. -/
theorem reaches_of_mem_run {bias : B} {products : List P} {a : A} (h : a ∈ acc.run bias products) :
    acc.Reaches a :=
  (Reaches.seed bias).of_mem_go h

end Runs

/-- `p` and `q` make the same of every value the accumulator takes. -/
def Interchanges (p q : P) : Prop := ∀ a, acc.Reaches a → acc.accumulate a p = acc.accumulate a q

variable {acc}

theorem Interchanges.of_eq {p q : P} (h : p = q) : acc.Interchanges p q := fun _ _ => by rw [h]

/-- A run takes either of two products at each of its terms. -/
theorem foldl_of_interchanges {p q : T → P} {ts : List T}
    (h : ∀ t ∈ ts, acc.Interchanges (p t) (q t)) {a : A} (ha : acc.Reaches a) :
    (ts.map p).foldl acc.accumulate a = (ts.map q).foldl acc.accumulate a := by
  induction ts generalizing a with
  | nil => rfl
  | cons t ts ih =>
      have hstep : acc.accumulate a (p t) = acc.accumulate a (q t) := h t List.mem_cons_self a ha
      have hrest := fun u hu => h u (List.mem_cons_of_mem t hu)
      rw [List.map_cons, List.map_cons, List.foldl_cons, List.foldl_cons, ← hstep]
      exact ih hrest (ha.accumulate (p t))

/-- A precision takes nothing but values it stores. -/
theorem stores_of_reaches {p : Precision} {s : Fixed} (h : (stored p).Reaches s) : p.Stores s := by
  cases h with
  | seed b => exact p.stores_store b
  | accumulate x _ => exact p.stores_store _

end Accumulator

namespace Config

variable {D D' W W' P B A O : Type} (cfg : Config D W P B A O)

/-- The configuration with products of other operands. -/
def withProduct (product : D' → W' → P) : Config D' W' P B A O :=
  ⟨cfg.geometry, product, cfg.accumulator, cfg.cast, cfg.valid⟩

variable {product : D' → W' → P} {f : D → D'} {g : W → W'} {input : Array D} {weights : Array W}
  {biases : Array B} {output : Array O}

/-- Each slot is the same. -/
theorem slot_of_interchanges (x : Operands cfg.geometry D W B) (x' : Operands cfg.geometry D' W' B)
    (hinput : x'.input = x.input.map f) (hweights : x'.weights = x.weights.map g)
    (hbiases : x'.biases = x.biases)
    (h : ∀ d ∈ x.input, ∀ w ∈ x.weights,
      cfg.accumulator.Interchanges (cfg.product d w) (product (f d) (g w)))
    (r : Replica cfg.geometry) : cfg.slot x r = (cfg.withProduct product).slot x' r := by
  have hsample (row col c) : x'.sample row col c = f (x.sample row col c) := by
    simp only [Operands.sample, hinput, Array.getElem_map]
  have hweight (dm kh kw c) : x'.weight dm kh kw c = g (x.weight dm kh kw c) := by
    simp only [Operands.weight, hweights, Array.getElem_map]
  have hbias : x'.bias r.c r.dm = x.bias r.c r.dm := by
    simp only [Operands.bias, hbiases]
  have hterms : ∀ t ∈ cfg.geometry.taps r.h r.w, cfg.accumulator.Interchanges
      (cfg.product (x.sample t.row t.col r.c) (x.weight r.dm t.kh t.kw r.c))
      (product (x'.sample t.row t.col r.c) (x'.weight r.dm t.kh t.kw r.c)) := fun t _ => by
    rw [hsample, hweight]
    exact h _ (Array.getElem_mem _) _ (Array.getElem_mem _)
  simp only [slot, products, withProduct, hbias]
  exact Accumulator.foldl_of_interchanges hterms (.seed _)

/-- **Exchanged products leave the same run.** -/
theorem compute_of_interchanges
    (h : ∀ d ∈ input, ∀ w ∈ weights,
      cfg.accumulator.Interchanges (cfg.product d w) (product (f d) (g w))) :
    cfg.compute input weights biases output =
      (cfg.withProduct product).compute (input.map f) (weights.map g) biases output := by
  have hcheck : cfg.geometry.checkOperands (input.map f).size (weights.map g).size biases.size
      output.size = cfg.geometry.checkOperands input.size weights.size biases.size output.size := by
    rw [Array.size_map, Array.size_map]
  refine (cfg.compute_congr input weights biases output (cfg.withProduct product) (input.map f)
    (weights.map g) biases hcheck rfl fun lens => ?_).symm
  let x := cfg.operands lens
  let x' : Operands cfg.geometry D' W' B := (cfg.withProduct product).operands (hcheck.trans lens)
  have hslot (r) : cfg.slot x r = (cfg.withProduct product).slot x' r :=
    cfg.slot_of_interchanges x x' rfl rfl rfl h r
  have houtputs : cfg.outputs x = (cfg.withProduct product).outputs x' :=
    List.map_congr_left fun r _ => congrArg cfg.cast (hslot r)
  rw [cfg.output_compute lens, (cfg.withProduct product).output_compute (hcheck.trans lens),
    houtputs]

end Config

end Depthwise
