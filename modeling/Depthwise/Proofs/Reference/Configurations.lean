import Depthwise.Proofs.Geometry.Derived
import Depthwise.Proofs.Geometry.Record
import Depthwise.Reference.Layer

/-!
# Configurations of reference layers

A layer is made of its arguments or of a configuration text (`ReferenceLayer.Built`).  Either way its
numbers are of 64 bits, which no check of the geometry by itself says of the strides: the arguments
and the text hold no others.  So what it writes is a text that it reads.
-/

namespace Depthwise

-- Powers are those of the core library, whatever else is imported.
attribute [local instance (high)] instPowNat

open Json (Reading Value)
open Reference

namespace ReferenceLayer

/-! ### Outcomes of calls -/

variable {α β : Type}

/-- What a call comes to, whatever it reports. -/
def outcome (x : Call α) : Except CallFault α := x.run.value

theorem outcome_bind (x : Call α) (f : α → Call β) :
    outcome (x >>= f) = outcome x >>= fun a => outcome (f a) := Logged.value_bind x f

@[simp] theorem outcome_orElse (x : Except CallFault α) : outcome (orElse x) = x := rfl

theorem outcome_run (x : ExceptT Fault Logged α) :
    outcome (run x) = x.run.value.mapError .refused := rfl

theorem outcome_accept (x : Except Fault α) : outcome (accept x) = x.mapError .refused := rfl

theorem mapError_eq_ok {x : Except Fault α} {a : α} :
    x.mapError CallFault.refused = .ok a ↔ x = .ok a := by
  cases x <;> simp [Except.mapError]

/-! ### Construction -/

/-- A layer that was made of arguments or read from a text. -/
inductive Built (layer : ReferenceLayer) : Prop
  | made {given : Arguments} : outcome (make given) = .ok layer → Built layer
  | read {text : String} : outcome (ofJson text) = .ok layer → Built layer

variable {layer : ReferenceLayer}

theorem ofGeometry_eq_ok_iff {g : Geometry} : ofGeometry g = .ok layer ↔ layer.geometry = g := by
  unfold ofGeometry
  constructor
  · intro h
    split at h <;> cases h
    rfl
  · rintro rfl
    split
    · rfl
    · next fault hv => cases hv.symm.trans layer.valid

theorem outcome_ofJson_eq_ok_iff {text : String} :
    outcome (ofJson text) = .ok layer ↔ Json.decode Geometry.ofJson text = .ok layer.geometry := by
  unfold ofJson
  split
  · next g hg =>
    rw [outcome_accept, mapError_eq_ok, ofGeometry_eq_ok_iff, hg, Except.ok.injEq, eq_comm]
  · next e he => simp [he]

/-- A text that does not read is refused with the fault that stands first in it. -/
theorem outcome_ofJson_eq_badConfig_iff {text : String} {fault : Json.ReadFault} :
    outcome (ofJson text) = .error (.badConfig fault) ↔
      Json.decode Geometry.ofJson text = .error fault := by
  unfold ofJson
  split
  · next g hg =>
    rw [outcome_accept, hg]
    cases ofGeometry g <;> simp [Except.mapError]
  · next e he => simp [he]

/-! ### Numbers of 64 bits -/

/-- What is got is the default, or what an argument is read as. -/
theorem get_cases {given : Arguments} {name : String} {default a : α}
    {read : Argument → Except CallFault α} (h : given.get name default read = .ok a) :
    a = default ∨ ∃ argument, read argument = .ok a := by
  unfold Arguments.get at h
  split at h
  · next argument hlookup => exact .inr ⟨argument, h⟩
  · exact .inl (Except.ok.inj h).symm

theorem natural_le {a : Argument} {n : Nat} (h : a.natural 64 = .ok n) : n ≤ Count.limit := by
  obtain ⟨i, hread, rfl⟩ := map_eq_ok.mp h
  have hcheck : ∀ k : Int, (if 0 ≤ k ∧ k ≤ 2 ^ (64 : Nat) - 1 then .ok k
      else .error .outOfRange : Except CallFault Int) = .ok i → i.toNat ≤ Count.limit := by
    intro k hk
    have hlimit : Count.limit = 2 ^ (64 : Nat) - 1 := rfl
    split at hk
    · cases hk
      omega
    · cases hk
  unfold Argument.integerIn at hread
  simp only at hread
  split at hread
  · exact hcheck _ hread
  · exact hcheck _ hread
  · cases hread

theorem pair_le {a : Argument} {m n : Nat} (h : a.pair = .ok (m, n)) :
    m ≤ Count.limit ∧ n ≤ Count.limit := by
  unfold Argument.pair at h
  split at h
  · simp only [bind_eq_ok] at h
    obtain ⟨k, hk, l, hl, h⟩ := h
    cases h
    exact ⟨natural_le hk, natural_le hl⟩
  · cases h
  · cases h

theorem fits_of_made {given : Arguments} (h : outcome (make given) = .ok layer) :
    layer.geometry.Fits := by
  unfold make at h
  simp only [outcome_bind, bind_eq_ok, outcome_orElse, outcome_accept, outcome_run,
    mapError_eq_ok, Prod.exists, ofGeometry_eq_ok_iff, Geometry.value_withPadding,
    Geometry.derive_eq_ok_iff] at h
  obtain ⟨-, -, _, _, _, -, _, _, -, _, -, strideHeight, strideWidth, hstrides, _, -, padding, -, g,
    ⟨-, rfl⟩, hg⟩ := h
  -- validity bounds all but the strides, and these are arguments or the default
  have hle : strideHeight ≤ Count.limit ∧ strideWidth ≤ Count.limit := by
    rcases get_cases hstrides with heq | ⟨argument, hpair⟩
    · cases heq
      decide
    · exact pair_le hpair
  have hconsistent := Geometry.validate_eq_ok_iff.mp layer.valid
  rw [hg] at hconsistent ⊢
  exact hconsistent.fits hle.1 hle.2

theorem Built.fits (h : layer.Built) : layer.geometry.Fits := by
  cases h with
  | made h => exact fits_of_made h
  | read h =>
      obtain ⟨hread, -⟩ := Json.decode_eq_ok_iff.mp (outcome_ofJson_eq_ok_iff.mp h)
      exact Geometry.fits_of_ofJson hread

/-- **Configurations survive their text.**  A geometry is read from what it writes, and from every
object with its members, however they are ordered, whatever others stand between them, and its pads
left out where they are zero or absent.  So every layer, however it was built, is read from what it
writes. -/
theorem configurations_survive :
    (∀ g : Geometry, g.Fits →
      Json.decode Geometry.ofJson g.toJson.render = .ok g ∧
        ∀ text members rest, Reading.ofText text = ⟨.object members none, .ok rest⟩ →
          Json.skipBlanks rest = [] → g.Describes members →
            Json.decode Geometry.ofJson text = .ok g) ∧
      ∀ layer : ReferenceLayer, layer.Built → outcome (ofJson layer.toJson) = .ok layer := by
  refine ⟨fun g hg => ⟨Geometry.decode_toJson hg, ?_⟩, fun layer hbuilt => ?_⟩
  · intro text members rest htext hblank hdescribes
    exact Geometry.decode_eq_ok_of_describes hg hdescribes htext hblank
  · exact outcome_ofJson_eq_ok_iff.mpr (Geometry.decode_toJson hbuilt.fits)

/-! ### A configuration in another order -/

/-- The rows need no pad; the columns have one on either side. -/
def sidePadded : Geometry :=
  ⟨⟨⟨4, 3, 2⟩, 2, 0, none⟩, ⟨⟨5, 3, 1⟩, 5, 1, some 1⟩, 2, 4⟩

/-- Its members from the last to the first, a note before them, one pad `null` and one left out. -/
def sidePaddedObject : Value :=
  .object [("note", .array [.text "padded", .null]), ("pad_right", .integer 1),
    ("pad_left", .integer 1), ("pad_bottom", .null), ("stride_width", .integer 1),
    ("stride_height", .integer 2), ("filt_width", .integer 3), ("filt_height", .integer 3),
    ("n_filt", .integer 4), ("out_width", .integer 5), ("out_height", .integer 2),
    ("n_chan", .integer 2), ("in_width", .integer 5), ("in_height", .integer 4)]

theorem fits_sidePaddedObject : sidePaddedObject.Fits := by
  simp [sidePaddedObject, Json.Numeral.gatherLimit]

theorem sidePadded_survives :
    sidePadded.Fits ∧ Json.decode Geometry.ofJson sidePaddedObject.render = .ok sidePadded ∧
      ∃ layer : ReferenceLayer, layer.Built ∧ layer.geometry = sidePadded ∧
        outcome (ofJson layer.toJson) = .ok layer := by
  obtain ⟨hgeometry, hlayer⟩ := configurations_survive
  have hfits : sidePadded.Fits :=
    ⟨⟨by decide, by decide, by decide, by decide, by decide, nofun⟩,
      ⟨by decide, by decide, by decide, by decide, by decide, by decide⟩, by decide, by decide⟩
  let known : List (String × Value) := sidePadded.requiredMembers ++ [] ++ [("pad_bottom", .null)] ++
    [("pad_left", .integer 1)] ++ [("pad_right", .integer 1)]
  let note := Json.memberReadings [("note", .array [.text "padded", .null])]
  have hdescribes : sidePadded.Describes (Json.memberReadings known ++ note).reverse := by
    refine ⟨known, note, ⟨_, _, _, _, rfl, .omitted, .null, .given 1, .given 1⟩, ?_,
      List.reverse_perm _⟩
    exact List.forall_mem_singleton.mpr ⟨"note", rfl, by decide, rfl⟩
  have htext := Json.ofText_render fits_sidePaddedObject
  have hread := (hgeometry sidePadded hfits).2 _ _ _ htext rfl hdescribes
  let layer : ReferenceLayer := ⟨sidePadded, rfl⟩
  have hbuilt : layer.Built := .read (outcome_ofJson_eq_ok_iff.mpr hread)
  exact ⟨hfits, hread, layer, hbuilt, rfl, hlayer layer hbuilt⟩

end ReferenceLayer

end Depthwise
