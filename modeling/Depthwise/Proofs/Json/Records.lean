import Depthwise.Fault
import Depthwise.Json.Decode
import Mathlib.Data.List.Nodup

/-!
# Records

What a record reads from an object, the members standing in any order and others among them.

* A member **fills** a field (`Schema.Fills`) when the field takes its value.  What is built so far is
  told by the names of the fields filled so far, so each member is judged by itself.
* A member is **foreign** (`Schema.Foreign`) when it belongs to no field and its value can be
  delimited.
* `Schema.read_perm_eq_ok`: members that fill different fields, all that are required among them,
  are read whatever their order and whatever foreign members stand between them.
* `Schema.read_induction`: what a record begins with and every field keeps holds of all that is read.
-/

namespace Depthwise.Json

theorem memberReadings_eq_map (members : List (String × Value)) :
    memberReadings members = members.map fun m => (.text (.ok m.1) none, m.2.reading) := by
  induction members with
  | nil => rfl
  | cons m ms ih => rw [memberReadings, ih, List.map_cons]

/-! ### Numbers -/

theorem Reading.integer_reading (expected : String) {lo hi n : Int} (hlo : lo ≤ n) (hhi : n ≤ hi) :
    (Value.integer n).reading.integer expected lo hi = .ok n := by
  rw [Value.reading]
  split
  · next hn => simp [Reading.integer, Int.toNat_of_nonneg hn, hlo, hhi]
  · simp [Reading.integer, hlo, hhi]

theorem Reading.natural_reading (expected : String) {hi n : Nat} (h : n ≤ hi) :
    (Value.integer n).reading.natural expected hi = .ok n := by
  rw [Reading.natural, Reading.integer_reading expected (Int.natCast_nonneg n) (Int.ofNat_le.mpr h)]
  rfl

/-- An integer that is read is between its bounds. -/
theorem Reading.mem_of_integer {expected : String} {lo hi n : Int} {r : Reading}
    (h : r.integer expected lo hi = .ok n) : lo ≤ n ∧ n ≤ hi := by
  have hcheck : ∀ k : Int, (if lo ≤ k ∧ k ≤ hi then .ok k
      else .error (.misfit (.invalidValue (.integer k) expected)) : Except ReadFault Int) = .ok n →
      lo ≤ n ∧ n ≤ hi := by
    intro k hk
    split at hk
    · cases hk
      assumption
    · cases hk
  unfold integer at h
  simp only at h
  split at h
  · exact hcheck _ h
  · exact hcheck _ h
  · cases h

theorem Reading.le_of_natural {expected : String} {hi n : Nat} {r : Reading}
    (h : r.natural expected hi = .ok n) : n ≤ hi := by
  obtain ⟨i, hread, rfl⟩ := map_eq_ok.mp h
  have hmem := mem_of_integer hread
  omega

/-- A value that is read is a value the reader of its kind gives. -/
theorem Reading.of_mem_optional {α : Type} {read : Reading → Except ReadFault α} {r : Reading}
    {o : Option α} (h : r.optional read = .ok o) {a : α} (ha : a ∈ o) : read r = .ok a := by
  unfold optional at h
  split at h
  · cases h
    cases ha
  · obtain ⟨b, hread, rfl⟩ := map_eq_ok.mp h
    cases ha
    exact hread

namespace Schema

variable {σ : Type} (schema : Schema σ)

/-- The field of that name. -/
def field? (name : String) : Option (RecordField σ) := schema.fields.find? (·.name == name)

/-- The name of the field to which a member belongs. -/
def fieldName? (m : Reading × Reading) : Option String := do
  let name ← m.1.name.toOption
  let field ← schema.field? name
  return field.name

/-- A member that belongs to no field and whose value can be delimited. -/
def Foreign (m : Reading × Reading) : Prop :=
  ∃ name, m.1.name = .ok name ∧ (∀ field ∈ schema.fields, field.name ≠ name) ∧ m.2.skip = none

/-- A member that fills a field: it makes of the record in which some fields are filled the record in
which one more is. -/
def Fills (part : List String → σ) (m : Reading × Reading) : Prop :=
  ∃ name field set, m.1.name = .ok name ∧ schema.field? name = some field ∧
    field.enter m.2 = .ok set ∧ ∀ names, set (part names) = part (name :: names)

variable {schema} {part : List String → σ} {members : List (Reading × Reading)}

theorem name_of_field? {name : String} {field : RecordField σ}
    (h : schema.field? name = some field) : field.name = name := by
  have hfound := List.find?_some h
  exact beq_iff_eq.mp hfound

theorem field?_eq_none {name : String} (h : ∀ field ∈ schema.fields, field.name ≠ name) :
    schema.field? name = none := by
  simpa [field?, List.find?_eq_none] using h

theorem Foreign.fieldName?_eq_none {m : Reading × Reading} (h : schema.Foreign m) :
    schema.fieldName? m = none := by
  obtain ⟨name, hname, hnone, -⟩ := h
  simp [fieldName?, hname, Except.toOption, field?_eq_none hnone]

theorem Fills.fieldName?_eq {m : String × Reading}
    (h : schema.Fills part (.text (.ok m.1) none, m.2)) :
    schema.fieldName? (.text (.ok m.1) none, m.2) = some m.1 := by
  obtain ⟨name, field, -, hname, hfield, -⟩ := h
  cases hname
  simp [fieldName?, Except.toOption, Reading.name, Reading.lift, hfield, name_of_field? hfield]

/-! ### Members in any order -/

/-- Members are entered one by one, each field being new where it stands. -/
theorem enterMembers_eq_ok (hmembers : ∀ m ∈ members, schema.Fills part m ∨ schema.Foreign m)
    (given : List String)
    (hnodup : ((members.filterMap schema.fieldName?).reverse ++ given).Nodup) :
    schema.enterMembers members given (part given) =
      .ok (part ((members.filterMap schema.fieldName?).reverse ++ given),
        (members.filterMap schema.fieldName?).reverse ++ given) := by
  induction members generalizing given with
  | nil => rfl
  | cons m ms ih =>
      have hrest := fun m hm => hmembers m (List.mem_cons_of_mem _ hm)
      obtain ⟨key, value⟩ := m
      rcases hmembers _ List.mem_cons_self with
        ⟨name, field, set, hname, hfield, hset, hpart⟩ | hforeign
      -- a member that fills a field adds its name to those given; a foreign one adds nothing
      · simp only at hname
        have hmember : schema.fieldName? (key, value) = some name := by
          simp [fieldName?, hname, hfield, Except.toOption, name_of_field? hfield]
        rw [List.filterMap_cons_some hmember, List.reverse_cons, List.append_assoc,
          List.singleton_append] at hnodup ⊢
        have hnew : name ∉ given :=
          (List.nodup_cons.mp (List.nodup_append.mp hnodup).2.1).1
        rw [← ih hrest _ hnodup, enterMembers]
        rw [field?] at hfield
        simp only [hname, hfield, hset, hpart, bind, Except.bind, List.contains_iff_mem, hnew,
          if_false]
      · rw [List.filterMap_cons_none hforeign.fieldName?_eq_none] at hnodup ⊢
        obtain ⟨name, hname, hnone, hskip⟩ := hforeign
        have hfield := field?_eq_none hnone
        rw [field?] at hfield
        simp only at hname hskip
        rw [← ih hrest _ hnodup, enterMembers]
        simp only [hname, hfield, hskip, bind, Except.bind]

theorem read_object_eq_ok (hstart : part [] = schema.initial)
    (hmembers : ∀ m ∈ members, schema.Fills part m ∨ schema.Foreign m)
    (hnodup : (members.filterMap schema.fieldName?).Nodup)
    (hgiven : ∀ field ∈ schema.fields, field.required = true →
      field.name ∈ members.filterMap schema.fieldName?) :
    schema.read (.object members none) =
      .ok (part (members.filterMap schema.fieldName?).reverse) := by
  have henter := enterMembers_eq_ok hmembers []
    (by rwa [List.append_nil, List.nodup_reverse])
  rw [hstart, List.append_nil] at henter
  have hlacking : schema.lacking (members.filterMap schema.fieldName?).reverse = none := by
    rw [lacking, Option.map_eq_none_iff, List.find?_eq_none]
    intro field hfield hneeded
    obtain ⟨hreq, habsent⟩ := Bool.and_eq_true_iff.mp hneeded
    have hmem := List.mem_reverse.mpr (hgiven field hfield hreq)
    simp [hmem] at habsent
  rw [read, henter]
  simp only [bind, Except.bind, hlacking, pure, Except.pure]

/-- **The order of the members does not matter**, nor do those that belong to no field. -/
theorem read_perm_eq_ok {known : List (String × Value)} {foreign : List (Reading × Reading)}
    (hstart : part [] = schema.initial) (hperm : members.Perm (memberReadings known ++ foreign))
    (hknown : ∀ m ∈ known, schema.Fills part (.text (.ok m.1) none, m.2.reading))
    (hforeign : ∀ m ∈ foreign, schema.Foreign m) (hnodup : (known.map Prod.fst).Nodup)
    (hgiven : ∀ field ∈ schema.fields, field.required = true →
      field.name ∈ known.map Prod.fst) :
    ∃ names, names.Perm (known.map Prod.fst) ∧
      schema.read (.object members none) = .ok (part names) := by
  have hsome : (memberReadings known).filterMap schema.fieldName? = known.map Prod.fst := by
    rw [memberReadings_eq_map, List.filterMap_map, ← List.filterMap_eq_map]
    exact List.filterMap_congr fun m hm =>
      Fills.fieldName?_eq (m := (m.1, m.2.reading)) (hknown m hm)
  have hnone : foreign.filterMap schema.fieldName? = [] :=
    List.filterMap_eq_nil_iff.mpr fun m hm => (hforeign m hm).fieldName?_eq_none
  have hnames : (members.filterMap schema.fieldName?).Perm (known.map Prod.fst) := by
    have hfiltered := hperm.filterMap schema.fieldName?
    rwa [List.filterMap_append, hnone, hsome, List.append_nil] at hfiltered
  have hmembers : ∀ m ∈ members, schema.Fills part m ∨ schema.Foreign m := by
    intro m hm
    rcases List.mem_append.mp (hperm.mem_iff.mp hm) with hm | hm
    · rw [memberReadings_eq_map] at hm
      obtain ⟨k, hk, rfl⟩ := List.mem_map.mp hm
      exact .inl (hknown k hk)
    · exact .inr (hforeign m hm)
  exact ⟨_, (List.reverse_perm _).trans hnames,
    read_object_eq_ok hstart hmembers (hnames.nodup_iff.mpr hnodup) fun field hfield hreq =>
      hnames.mem_iff.mpr (hgiven field hfield hreq)⟩

/-! ### What every field keeps -/

section Induction

variable {P : σ → Prop}
  (hfields : ∀ field ∈ schema.fields, ∀ r set, field.enter r = .ok set →
    ∀ record, P record → P (set record))

include hfields

theorem enterMembers_induction {given given' : List String} {record record' : σ}
    (hrecord : P record)
    (h : schema.enterMembers members given record = .ok (record', given')) : P record' := by
  induction members generalizing given record with
  | nil =>
      cases h
      exact hrecord
  | cons m ms ih =>
      obtain ⟨key, value⟩ := m
      obtain ⟨name, -, h⟩ := bind_eq_ok.mp h
      split at h
      · split at h
        · cases h
        · exact ih hrecord h
      · next field hfield =>
        split at h
        · cases h
        · obtain ⟨set, hset, h⟩ := bind_eq_ok.mp h
          have hmem := List.mem_of_find?_eq_some hfield
          exact ih (hfields field hmem value set hset record hrecord) h

theorem enterItems_induction {stop : Option Break} {fields : List (RecordField σ)}
    (hsub : ∀ field ∈ fields, field ∈ schema.fields) {items : List Reading} {index : Nat}
    {record record' : σ} (hrecord : P record)
    (h : schema.enterItems stop fields items index record = .ok record') : P record' := by
  induction fields generalizing items index record with
  | nil =>
      cases items with
      | cons item items => cases h
      | nil =>
          cases stop <;> cases h
          exact hrecord
  | cons field fields ih =>
      have hrest := fun f hf => hsub f (List.mem_cons_of_mem field hf)
      cases items with
      | nil =>
          cases stop with
          | some b => cases h
          | none =>
              unfold enterItems at h
              simp only at h
              split at h
              · cases h
              · exact ih hrest hrecord h
      | cons item items =>
          obtain ⟨set, hset, h⟩ := bind_eq_ok.mp h
          exact ih hrest (hfields field (hsub field List.mem_cons_self) item set hset record hrecord)
            h

theorem read_induction (hinitial : P schema.initial) {r : Reading} {record : σ}
    (h : schema.read r = .ok record) : P record := by
  unfold read at h
  split at h
  · next members stop =>
    obtain ⟨⟨record', given⟩, henter, h⟩ := bind_eq_ok.mp h
    have hrecord := enterMembers_induction hfields hinitial henter
    cases stop with
    | some b => cases h
    | none =>
        simp only at h
        split at h
        · next heq => cases heq
        · cases h
        · cases h
          exact hrecord
  · exact enterItems_induction hfields (fun _ hf => hf) hinitial h
  · cases h

end Induction

end Schema

end Depthwise.Json
