import Depthwise.Geometry.Record
import Depthwise.Proofs.Geometry.Consistent
import Depthwise.Proofs.Json.Records
import Depthwise.Proofs.Json.Written

/-!
# Geometries and their JSON

`Geometry.Describes` says which members describe a geometry: its numbers, each pad by itself or left
out where it is zero or absent, in any order and with foreign members between them.

* `decode_eq_ok_of_describes`: members that describe a geometry are read as that geometry.
* `fits_of_ofJson`: whatever is read has numbers of 64 bits, which is what writing needs.
* `Consistent.fits`: so has a consistent geometry whose strides are given in 64 bits.
-/

namespace Depthwise

-- Powers are those of the core library, whatever else is imported.
attribute [local instance (high)] instPowNat

open Json (Value Reading Schema)

/-- Every number of the span is one of 64 bits. -/
structure Span.Fits (s : Span) : Prop where
  input : s.input ≤ Count.limit
  filt : s.filt ≤ Count.limit
  stride : s.stride ≤ Count.limit
  out : s.out ≤ Count.limit
  before : s.before ≤ Count.limit
  after : ∀ n ∈ s.after, n ≤ Count.limit

/-- Where the last window ends at a count that fits, there are no more windows than that. -/
theorem Span.out_le {out stride filt : Nat} (hfilt : 0 < filt) (hstride : 0 < stride)
    (h : (out - 1) * stride + filt ≤ Count.limit) : out ≤ Count.limit := by
  have hsteps : out - 1 ≤ (out - 1) * stride := Nat.le_mul_of_pos_right _ hstride
  omega

theorem Span.Consistent.fits {s : Span} (h : s.Consistent) (hstride : s.stride ≤ Count.limit) :
    s.Fits := by
  obtain ⟨-, hfilt, hpos, -, hwindows⟩ := h
  unfold WindowsFit at hwindows
  split at hwindows
  · next after hafter =>
    obtain ⟨hpadded, hfits, hlast, -⟩ := hwindows
    have hout := Span.out_le hfilt hpos (Nat.le_trans hlast hpadded)
    refine ⟨by omega, by omega, hstride, hout, by omega, fun n hn => ?_⟩
    obtain rfl : after = n := by simpa [hafter] using hn
    omega
  · next hafter =>
    obtain ⟨hfront, hlast, -⟩ := hwindows
    exact ⟨by omega, by omega, hstride, Span.out_le hfilt hpos hlast, by omega, by simp [hafter]⟩

namespace Geometry

/-- Every number of the geometry is one of 64 bits. -/
structure Fits (g : Geometry) : Prop where
  rows : g.rows.Fits
  cols : g.cols.Fits
  channels : g.channels ≤ Count.limit
  filters : g.filters ≤ Count.limit

/-! ### Members -/

/-- How a leading pad may be written: by its number, or when it is zero not at all. -/
inductive LeadingPad (name : String) : Nat → List (String × Value) → Prop
  | given (n : Nat) : LeadingPad name n [(name, .integer n)]
  | omitted : LeadingPad name 0 []

/-- How a trailing pad may be written: by its number, or when it is absent as `null` or not at
all. -/
inductive TrailingPad (name : String) : Option Nat → List (String × Value) → Prop
  | given (n : Nat) : TrailingPad name (some n) [(name, .integer n)]
  | null : TrailingPad name none [(name, .null)]
  | omitted : TrailingPad name none []

variable (g : Geometry)

/-- The members that are always written. -/
def requiredMembers : List (String × Value) :=
  [("in_height", .integer g.rows.input), ("in_width", .integer g.cols.input),
    ("n_chan", .integer g.channels), ("out_height", .integer g.rows.out),
    ("out_width", .integer g.cols.out), ("n_filt", .integer g.filters),
    ("filt_height", .integer g.rows.filt), ("filt_width", .integer g.cols.filt),
    ("stride_height", .integer g.rows.stride), ("stride_width", .integer g.cols.stride)]

/-- The members that tell a geometry, each pad being written in one of its ways. -/
def Spelled (known : List (String × Value)) : Prop :=
  ∃ top bottom left right, known = g.requiredMembers ++ top ++ bottom ++ left ++ right ∧
    LeadingPad "pad_top" g.rows.before top ∧ TrailingPad "pad_bottom" g.rows.after bottom ∧
    LeadingPad "pad_left" g.cols.before left ∧ TrailingPad "pad_right" g.cols.after right

/-- The members of an object that describes a geometry. -/
def Describes (members : List (Reading × Reading)) : Prop :=
  ∃ known foreign, g.Spelled known ∧ (∀ m ∈ foreign, schema.Foreign m) ∧
    members.Perm (Json.memberReadings known ++ foreign)

/-- The geometry in which those fields are entered and no others. -/
def filled (names : List String) : Geometry where
  rows :=
    { input := if "in_height" ∈ names then g.rows.input else 0
      filt := if "filt_height" ∈ names then g.rows.filt else 0
      stride := if "stride_height" ∈ names then g.rows.stride else 0
      out := if "out_height" ∈ names then g.rows.out else 0
      before := if "pad_top" ∈ names then g.rows.before else 0
      after := if "pad_bottom" ∈ names then g.rows.after else none }
  cols :=
    { input := if "in_width" ∈ names then g.cols.input else 0
      filt := if "filt_width" ∈ names then g.cols.filt else 0
      stride := if "stride_width" ∈ names then g.cols.stride else 0
      out := if "out_width" ∈ names then g.cols.out else 0
      before := if "pad_left" ∈ names then g.cols.before else 0
      after := if "pad_right" ∈ names then g.cols.after else none }
  channels := if "n_chan" ∈ names then g.channels else 0
  filters := if "n_filt" ∈ names then g.filters else 0

variable {g} {name : String} {known : List (String × Value)}

/-- The member `m` fills a field of the geometry. -/
abbrev FillsIn (g : Geometry) (m : String × Value) : Prop :=
  schema.Fills g.filled (.text (.ok m.1) none, m.2.reading)

theorem fills_count {required : Bool} {set : Nat → Geometry → Geometry} {n : Nat}
    (hfield : schema.field? name = some (countField name required set)) (hn : n ≤ Count.limit)
    (hset : ∀ names, set n (g.filled names) = g.filled (name :: names)) :
    g.FillsIn (name, .integer n) :=
  ⟨name, _, set n, rfl, hfield, congrArg (Except.map set) (Reading.natural_reading "usize" hn), hset⟩

theorem fills_optional {set : Option Nat → Geometry → Geometry} {after : Option Nat}
    (hfield : schema.field? name = some (optionalField name set))
    (hafter : ∀ n ∈ after, n ≤ Count.limit)
    (hset : ∀ names, set after (g.filled names) = g.filled (name :: names))
    {members : List (String × Value)} (h : TrailingPad name after members) :
    ∀ m ∈ members, g.FillsIn m := by
  cases h with
  | given n =>
      have hread := congrArg (Except.map some)
        (Reading.natural_reading "usize" (hafter n rfl))
      exact List.forall_mem_singleton.mpr
        ⟨name, _, set n, rfl, hfield, congrArg (Except.map set) hread, hset⟩
  | null => exact List.forall_mem_singleton.mpr ⟨name, _, set none, rfl, hfield, rfl, hset⟩
  | omitted => exact List.forall_mem_nil _

theorem fills_leading {set : Nat → Geometry → Geometry} {n : Nat}
    (hfield : schema.field? name = some (countField name false set)) (hn : n ≤ Count.limit)
    (hset : ∀ names, set n (g.filled names) = g.filled (name :: names))
    {members : List (String × Value)} (h : LeadingPad name n members) :
    ∀ m ∈ members, g.FillsIn m := by
  cases h with
  | given n => exact List.forall_mem_singleton.mpr (fills_count hfield hn hset)
  | omitted => exact List.forall_mem_nil _

theorem fills_required (hg : g.Fits) : ∀ m ∈ g.requiredMembers, g.FillsIn m := by
  simp only [requiredMembers, List.forall_mem_cons, List.not_mem_nil, false_implies, implies_true,
    and_true]
  refine ⟨fills_count rfl hg.rows.input ?_, fills_count rfl hg.cols.input ?_,
    fills_count rfl hg.channels ?_, fills_count rfl hg.rows.out ?_,
    fills_count rfl hg.cols.out ?_, fills_count rfl hg.filters ?_,
    fills_count rfl hg.rows.filt ?_, fills_count rfl hg.cols.filt ?_,
    fills_count rfl hg.rows.stride ?_, fills_count rfl hg.cols.stride ?_⟩ <;>
    intro names <;> simp [filled]

theorem fills_of_spelled (hg : g.Fits) (h : g.Spelled known) : ∀ m ∈ known, g.FillsIn m := by
  obtain ⟨top, bottom, left, right, rfl, htop, hbottom, hleft, hright⟩ := h
  simp only [List.forall_mem_append]
  refine ⟨⟨⟨⟨fills_required hg, fills_leading rfl hg.rows.before ?_ htop⟩,
    fills_optional rfl hg.rows.after ?_ hbottom⟩, fills_leading rfl hg.cols.before ?_ hleft⟩,
    fills_optional rfl hg.cols.after ?_ hright⟩ <;>
    intro names <;> simp [filled]

theorem LeadingPad.names_sublist {n : Nat} {members : List (String × Value)}
    (h : LeadingPad name n members) : (members.map Prod.fst).Sublist [name] := by
  cases h <;> simp

theorem TrailingPad.names_sublist {after : Option Nat} {members : List (String × Value)}
    (h : TrailingPad name after members) : (members.map Prod.fst).Sublist [name] := by
  cases h <;> simp

/-- The names of the members are names of fields, in the order of the fields. -/
theorem names_sublist (h : g.Spelled known) :
    (known.map Prod.fst).Sublist (schema.fields.map (·.name)) := by
  obtain ⟨top, bottom, left, right, rfl, htop, hbottom, hleft, hright⟩ := h
  simp only [List.map_append]
  exact ((((List.Sublist.refl _).append htop.names_sublist).append hbottom.names_sublist).append
    hleft.names_sublist).append hright.names_sublist

theorem LeadingPad.filled {n : Nat} {members : List (String × Value)}
    (h : LeadingPad name n members) {names : List String} (hnames : ∀ m ∈ members, m.1 ∈ names) :
    (if name ∈ names then n else 0) = n := by
  cases h with
  | given n => exact if_pos (hnames _ List.mem_cons_self)
  | omitted => exact ite_self 0

theorem TrailingPad.filled {after : Option Nat} {members : List (String × Value)}
    (h : TrailingPad name after members) {names : List String}
    (hnames : ∀ m ∈ members, m.1 ∈ names) : (if name ∈ names then after else none) = after := by
  cases h with
  | given n => exact if_pos (hnames _ List.mem_cons_self)
  | null => exact ite_self none
  | omitted => exact ite_self none

theorem filled_eq_of_spelled (h : g.Spelled known) {names : List String}
    (hnames : ∀ m ∈ known, m.1 ∈ names) : g.filled names = g := by
  obtain ⟨top, bottom, left, right, rfl, htop, hbottom, hleft, hright⟩ := h
  simp only [List.forall_mem_append] at hnames
  obtain ⟨⟨⟨⟨hrequired, intop⟩, inbottom⟩, inleft⟩, inright⟩ := hnames
  simp only [requiredMembers, List.forall_mem_cons] at hrequired
  simp only [Geometry.filled, hrequired, if_true, htop.filled intop, hbottom.filled inbottom,
    hleft.filled inleft, hright.filled inright]

/-! ### Reading -/

/-- **Members that describe a geometry are read as that geometry.** -/
theorem decode_eq_ok_of_describes (hg : g.Fits) {text : String} {members : List (Reading × Reading)}
    (h : g.Describes members) {rest : List Char}
    (htext : Reading.ofText text = ⟨.object members none, .ok rest⟩)
    (hblank : Json.skipBlanks rest = []) : Json.decode ofJson text = .ok g := by
  obtain ⟨known, foreign, hspelled, hforeign, hperm⟩ := h
  -- in the order of the fields the names are those of some fields, so none stands twice
  have hnodup : (known.map Prod.fst).Nodup := (names_sublist hspelled).nodup (by decide)
  have hgiven : ∀ field ∈ schema.fields, field.required = true →
      field.name ∈ known.map Prod.fst := by
    obtain ⟨top, bottom, left, right, rfl, -⟩ := hspelled
    simp [schema, countField, optionalField, requiredMembers]
  obtain ⟨names, hnames, hread⟩ := Schema.read_perm_eq_ok rfl hperm
    (fills_of_spelled hg hspelled) hforeign hnodup hgiven
  have hfilled : g.filled names = g := filled_eq_of_spelled hspelled fun m hm =>
    hnames.mem_iff.mpr (List.mem_map_of_mem hm)
  rw [hfilled] at hread
  rw [Json.decode_eq_ok_iff, htext]
  exact ⟨hread, rest, rfl, hblank⟩

theorem spelled_padMembers :
    g.Spelled (g.requiredMembers ++ [("pad_top", .integer g.rows.before)] ++
      padMember "pad_bottom" g.rows.after ++ [("pad_left", .integer g.cols.before)] ++
      padMember "pad_right" g.cols.after) := by
  have hpad : ∀ (name : String) (after : Option Nat),
      TrailingPad name after (padMember name after) := by
    intro name after
    cases after with
    | none => exact .omitted
    | some n => exact .given n
  exact ⟨_, _, _, _, rfl, .given _, hpad _ _, .given _, hpad _ _⟩

/-- Its numbers being of 64 bits, a geometry is written in numerals that are read as integers. -/
theorem fits_toJson (hg : g.Fits) : g.toJson.Fits := by
  have hcount : ∀ n : Nat, n ≤ Count.limit → (Value.integer n).Fits := by
    intro n hn
    exact .integer (by omega) (Int.ofNat_le.mpr hn)
  have hpad : ∀ (name : String) (after : Option Nat), (∀ n ∈ after, n ≤ Count.limit) →
      ∀ m ∈ padMember name after, m.2.Fits := by
    intro name after hafter m hm
    obtain ⟨n, hn, rfl⟩ := List.mem_map.mp hm
    exact hcount n (hafter n (Option.mem_toList.mp hn))
  refine .object ?_
  simp only [List.forall_mem_append, List.forall_mem_cons, List.not_mem_nil, false_implies,
    implies_true, and_true]
  exact ⟨⟨⟨⟨hcount _ hg.rows.input, hcount _ hg.cols.input, hcount _ hg.channels,
      hcount _ hg.rows.out, hcount _ hg.cols.out, hcount _ hg.filters, hcount _ hg.rows.filt,
      hcount _ hg.cols.filt, hcount _ hg.rows.stride, hcount _ hg.cols.stride,
      hcount _ hg.rows.before⟩, hpad _ _ hg.rows.after⟩, hcount _ hg.cols.before⟩,
    hpad _ _ hg.cols.after⟩

theorem decode_toJson (hg : g.Fits) : Json.decode ofJson g.toJson.render = .ok g := by
  have hdescribes : g.Describes (Json.memberReadings (g.requiredMembers ++
      [("pad_top", .integer g.rows.before)] ++ padMember "pad_bottom" g.rows.after ++
      [("pad_left", .integer g.cols.before)] ++ padMember "pad_right" g.cols.after)) :=
    ⟨_, [], spelled_padMembers, by simp, .of_eq (List.append_nil _).symm⟩
  exact decode_eq_ok_of_describes hg hdescribes (Json.ofText_render (fits_toJson hg)) rfl

/-! ### What is read -/

/-- Entering a count keeps the numbers within 64 bits. -/
theorem fits_of_enter_count {required : Bool} {set : Nat → Geometry → Geometry}
    (hset : ∀ n ≤ Count.limit, ∀ g : Geometry, g.Fits → (set n g).Fits) :
    ∀ r enter, (countField name required set).enter r = .ok enter →
      ∀ g : Geometry, g.Fits → (enter g).Fits := by
  intro r enter henter
  obtain ⟨n, hread, rfl⟩ := map_eq_ok.mp henter
  exact hset n (Reading.le_of_natural hread)

theorem fits_of_enter_optional {set : Option Nat → Geometry → Geometry}
    (hset : ∀ after : Option Nat, (∀ n ∈ after, n ≤ Count.limit) →
      ∀ g : Geometry, g.Fits → (set after g).Fits) :
    ∀ r enter, (optionalField name set).enter r = .ok enter →
      ∀ g : Geometry, g.Fits → (enter g).Fits := by
  intro r enter henter
  obtain ⟨after, hread, rfl⟩ := map_eq_ok.mp henter
  exact hset after fun n hn => Reading.le_of_natural (Reading.of_mem_optional hread hn)

/-- Whatever is read has numbers of 64 bits. -/
theorem fits_of_ofJson {r : Reading} (h : ofJson r = .ok g) : g.Fits := by
  refine Schema.read_induction ?_ ?_ h
  · simp only [schema, List.forall_mem_cons, List.not_mem_nil, false_implies, implies_true,
      and_true]
    exact
      ⟨fits_of_enter_count fun _ hn _ hg => { hg with rows := { hg.rows with input := hn } },
        fits_of_enter_count fun _ hn _ hg => { hg with cols := { hg.cols with input := hn } },
        fits_of_enter_count fun _ hn _ hg => { hg with channels := hn },
        fits_of_enter_count fun _ hn _ hg => { hg with rows := { hg.rows with out := hn } },
        fits_of_enter_count fun _ hn _ hg => { hg with cols := { hg.cols with out := hn } },
        fits_of_enter_count fun _ hn _ hg => { hg with filters := hn },
        fits_of_enter_count fun _ hn _ hg => { hg with rows := { hg.rows with filt := hn } },
        fits_of_enter_count fun _ hn _ hg => { hg with cols := { hg.cols with filt := hn } },
        fits_of_enter_count fun _ hn _ hg => { hg with rows := { hg.rows with stride := hn } },
        fits_of_enter_count fun _ hn _ hg => { hg with cols := { hg.cols with stride := hn } },
        fits_of_enter_count fun _ hn _ hg => { hg with rows := { hg.rows with before := hn } },
        fits_of_enter_optional fun _ hn _ hg => { hg with rows := { hg.rows with after := hn } },
        fits_of_enter_count fun _ hn _ hg => { hg with cols := { hg.cols with before := hn } },
        fits_of_enter_optional fun _ hn _ hg => { hg with cols := { hg.cols with after := hn } }⟩
  · have hzero : (⟨⟨0, 0, 0⟩, 0, 0, none⟩ : Span).Fits :=
      ⟨Nat.zero_le _, Nat.zero_le _, Nat.zero_le _, Nat.zero_le _, Nat.zero_le _, nofun⟩
    exact ⟨hzero, hzero, Nat.zero_le _, Nat.zero_le _⟩

/-! ### What is valid -/

/-- A consistent geometry has numbers of 64 bits, but for the strides: where there is one window, it
may be followed by a step of any length. -/
theorem Consistent.fits (h : g.Consistent) (hrows : g.rows.stride ≤ Count.limit)
    (hcols : g.cols.stride ≤ Count.limit) : g.Fits where
  rows := h.rows.fits hrows
  cols := h.cols.fits hcols
  channels := by
    have hinput := h.input_le
    rw [Nat.mul_comm] at hinput
    exact Count.le_of_mul_le (Nat.mul_pos h.rows.input_pos h.cols.input_pos) hinput
  filters := by
    have houtput := h.output_le
    rw [Nat.mul_comm] at houtput
    exact Count.le_of_mul_le (Nat.mul_pos h.rows.out_pos h.cols.out_pos) houtput

end Geometry

end Depthwise
