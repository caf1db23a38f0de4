import Mathlib.Algebra.Ring.Nat
import Mathlib.Data.List.Perm.Subperm
import Mathlib.Data.List.Zip
import Signer.CanonicalForm

/-!
# Records in JSON texts

A deserializer walks the syntax tree of a text, in which an object lists its members as written. A
derived one takes a record from an object: no field may occur twice and, where unknown fields are
denied, every member is a field. It also takes the fields from an array, in the order of their
declaration. A `Value` keeps the last of several members of one name, and compares objects by
name.
-/

namespace Signer.Serde

variable {α : Type}

/-! ### Readers -/

abbrev Reader (α : Type) : Type := Json → Option α

def string : Reader String := Json.asStr

def u64 : Reader UInt64 := Json.asU64

def u32 : Reader UInt32 := fun v =>
  (u64 v).bind fun n => if n.toNat < 2 ^ 32 then some n.toUInt32 else none

def list (read : Reader α) : Reader (List α)
  | .array items => items.mapM read
  | _ => none

def record (names : List String) (denyUnknown : Bool) : Reader (List (String × Json))
  | .object members =>
    if (names.all fun name => members.countP (·.1 == name) ≤ 1) ∧
        (denyUnknown → members.all fun m => m.1 ∈ names) then some members
    else none
  | .array items => if items.length ≤ names.length then some (names.zip items) else none
  | _ => none

/-- A field of type `Option<T>` with `#[serde(default)]`. -/
def optional (read : Reader α) : Option Json → Option (Option α)
  | none => some none
  | some .null => some none
  | some v => (read v).map some

def mandatory (read : Reader α) (field : Option Json) : Option α := field.bind read

/-! ### Values -/

mutual

/-- The `Value` of a syntax tree: of several members of one name, the first place and the last
value count. -/
def value : Json → Json
  | .array items => .array (valueItems items)
  | .object members => .object (valueMembers members)
  | v => v

def valueItems : List Json → List Json
  | [] => []
  | item :: items => value item :: valueItems items

def valueMembers : List (String × Json) → List (String × Json)
  | [] => []
  | (name, v) :: members =>
    let later := valueMembers members
    match later.lookup name with
    | some w => (name, w) :: later.filter (·.1 ≠ name)
    | none => (name, value v) :: later

end

mutual

/-- `Value::eq`: objects are compared by name. -/
def eqv : Json → Json → Bool
  | .null, .null => true
  | .bool a, .bool b => a = b
  | .number m, .number n => m = n
  | .string s, .string t => s = t
  | .array vs, .array ws => eqvItems vs ws
  | .object ms, .object ks => ms.length = ks.length && eqvMembers ms ks
  | _, _ => false

def eqvItems : List Json → List Json → Bool
  | [], [] => true
  | v :: vs, w :: ws => eqv v w && eqvItems vs ws
  | _, _ => false

def eqvMembers : List (String × Json) → List (String × Json) → Bool
  | [], _ => true
  | (name, v) :: ms, ks =>
    (match ks.lookup name with
      | some w => eqv v w
      | none => false) && eqvMembers ms ks

end

/-! ### Reading what is there -/

section

variable {read : Reader α} {names : List String} {found : List (String × Json)} {name : String}
  {v w : Json}

theorem mem_of_lookup (h : found.lookup name = some w) : (name, w) ∈ found := by
  obtain ⟨before, after, rfl, -⟩ := List.lookup_eq_some_iff.mp h
  simp

theorem lookup_of_mem (hnodup : (found.map Prod.fst).Nodup) (h : (name, w) ∈ found) :
    found.lookup name = some w := by
  obtain ⟨before, after, rfl⟩ := List.append_of_mem h
  refine List.lookup_eq_some_iff.mpr ⟨before, after, rfl, fun m hm => ?_⟩
  rw [List.map_append, List.map_cons] at hnodup
  exact bne_iff_ne.mpr fun heq => (List.nodup_append.mp hnodup).2.2 _ (List.mem_map_of_mem hm)
    name List.mem_cons_self heq.symm

theorem record_object {members : List (String × Json)} {denyUnknown : Bool}
    (hnodup : (members.map Prod.fst).Nodup) (hknown : ∀ m ∈ members, m.1 ∈ names) :
    record names denyUnknown (.object members) = some members := by
  have hcount : ∀ name, members.countP (·.1 == name) ≤ 1 := by
    intro name
    have hone := List.nodup_iff_count_le_one.mp hnodup name
    rw [List.count, List.countP_map] at hone
    simpa [Function.comp_def] using hone
  rw [record, if_pos]
  refine ⟨List.all_eq_true.mpr fun name _ => decide_eq_true (hcount name), fun _ => ?_⟩
  exact List.all_eq_true.mpr fun m hm => decide_eq_true (hknown m hm)

theorem optional_map {write : α → Json} (hread : ∀ a, read (write a) = some a)
    (hnull : ∀ a, write a ≠ .null) (a : Option α) : optional read (a.map write) = some a := by
  cases a with
  | none => rfl
  | some a =>
    rw [Option.map_some]
    have ha := hread a
    cases hwrite : write a with
    | null => exact absurd hwrite (hnull a)
    | _ =>
      rw [hwrite] at ha
      simp only [optional, ha, Option.map_some]

theorem list_map {write : α → Json} (hread : ∀ a, read (write a) = some a) (items : List α) :
    list read (.array (items.map write)) = some items := by
  rw [list, List.mapM_map]
  induction items with
  | nil => rfl
  | cons item items ih => simp [List.mapM_cons, hread, ih]

theorem u32_number (n : UInt32) : u32 (.number (.posInt n.toUInt64)) = some n := by
  have hsmall : n.toUInt64.toNat < 2 ^ 32 := by
    rw [UInt32.toNat_toUInt64]
    exact n.toNat_lt
  simp only [u32, u64, Json.asU64, Option.bind_some, if_pos hsmall, UInt32.toUInt32_toUInt64]

/-! ### What was read has no repeated names -/

def Distinct (read : Reader α) : Prop := ∀ ⦃v a⦄, read v = some a → v.noDup = true

theorem distinct_string : Distinct string := by
  intro v a h
  cases v <;> simp [string, Json.asStr] at h
  rfl

theorem distinct_u64 : Distinct u64 := by
  intro v a h
  cases v <;> simp [u64, Json.asU64] at h
  rfl

theorem distinct_u32 : Distinct u32 := by
  intro v a h
  obtain ⟨n, hn, -⟩ := Option.bind_eq_some_iff.mp h
  exact distinct_u64 hn

theorem noDupItems_iff {vs : List Json} :
    Json.noDupItems vs = true ↔ ∀ v ∈ vs, v.noDup = true := by
  induction vs with
  | nil => simp [Json.noDupItems]
  | cons v vs ih => simp [Json.noDupItems, ih]

theorem Distinct.list (h : Distinct read) : Distinct (Serde.list read) := by
  intro v as hread
  cases v with
  | array items =>
    rw [Json.noDup, noDupItems_iff]
    rw [Serde.list] at hread
    induction items generalizing as with
    | nil => simp
    | cons item items ih =>
      simp only [List.mapM_cons, do_eq_some] at hread
      obtain ⟨a, ha, rest, hrest, -⟩ := hread
      exact List.forall_mem_cons.mpr ⟨h ha, ih hrest⟩
  | _ => simp [Serde.list] at hread

theorem Distinct.of_optional (h : Distinct read) {a : Option α}
    (hread : optional read (some v) = some a) : v.noDup = true := by
  cases v with
  | null => rfl
  | _ =>
    obtain ⟨b, hb, -⟩ := Option.map_eq_some_iff.mp hread
    exact h hb

theorem Distinct.of_mandatory (h : Distinct read) {a : α}
    (hread : mandatory read (some v) = some a) : v.noDup = true := h hread

theorem noDup_of_record (hnames : names.Nodup) (h : record names true v = some found)
    (hfields : ∀ name ∈ names, ∀ w, found.lookup name = some w → w.noDup = true) :
    v.noDup = true := by
  cases v with
  | object members =>
    obtain ⟨⟨honce, hknown⟩, hfound⟩ := Option.ite_none_right_eq_some.mp h
    obtain rfl := Option.some.inj hfound
    replace hknown : ∀ m ∈ members, m.1 ∈ names := fun m hm =>
      of_decide_eq_true (List.all_eq_true.mp (hknown rfl) m hm)
    have hnodup : (members.map Prod.fst).Nodup := by
      refine List.nodup_iff_count_le_one.mpr fun name => ?_
      by_cases hname : name ∈ names
      · rw [List.count, List.countP_map]
        exact of_decide_eq_true (List.all_eq_true.mp honce name hname)
      · have habsent : name ∉ members.map Prod.fst := by
          intro hmem
          obtain ⟨m, hm, rfl⟩ := List.mem_map.mp hmem
          exact hname (hknown m hm)
        rw [List.count_eq_zero_of_not_mem habsent]
        exact Nat.zero_le 1
    rw [Json.noDup, Bool.and_eq_true, decide_eq_true_eq, Json.noDupMembers_iff]
    exact ⟨hnodup, fun m hm => hfields m.1 (hknown m hm) m.2 (lookup_of_mem hnodup hm)⟩
  | array items =>
    obtain ⟨hlength, hfound⟩ := Option.ite_none_right_eq_some.mp h
    cases hfound
    have hnodup : ((names.zip items).map Prod.fst).Nodup := by
      rw [List.zip_eq_zip_take_min, Nat.min_eq_right hlength, List.take_length,
        List.map_fst_zip (by simp)]
      exact hnames.sublist (List.take_sublist _ _)
    rw [Json.noDup, noDupItems_iff]
    intro item hitem
    rw [← List.map_snd_zip hlength] at hitem
    obtain ⟨⟨name, item⟩, hmem, rfl⟩ := List.mem_map.mp hitem
    exact hfields name (List.of_mem_zip hmem).1 item (lookup_of_mem hnodup hmem)
  | _ => simp [record] at h

/-! ### Values of texts without repeated names -/

mutual

theorem value_of_noDup : ∀ v : Json, v.noDup = true → value v = v
  | .null, _ | .bool _, _ | .number _, _ | .string _, _ => rfl
  | .array vs, h => congrArg Json.array (valueItems_of_noDup vs h)
  | .object ms, h => by
    rw [Json.noDup, Bool.and_eq_true, decide_eq_true_eq] at h
    exact congrArg Json.object (valueMembers_of_noDup ms h.1 h.2)

theorem valueItems_of_noDup : ∀ vs : List Json, Json.noDupItems vs = true → valueItems vs = vs
  | [], _ => rfl
  | v :: vs, h => by
    rw [Json.noDupItems, Bool.and_eq_true] at h
    rw [valueItems, value_of_noDup v h.1, valueItems_of_noDup vs h.2]

theorem valueMembers_of_noDup : ∀ ms : List (String × Json), (ms.map (·.1)).Nodup →
    Json.noDupMembers ms = true → valueMembers ms = ms
  | [], _, _ => rfl
  | (name, v) :: ms, hnodup, h => by
    rw [Json.noDupMembers, Bool.and_eq_true] at h
    rw [List.map_cons, List.nodup_cons] at hnodup
    have hfresh : ms.lookup name = none := by
      refine List.lookup_eq_none_iff.mpr fun m hm => bne_iff_ne.mpr fun heq => ?_
      exact hnodup.1 (List.mem_map.mpr ⟨m, hm, heq.symm⟩)
    rw [valueMembers, valueMembers_of_noDup ms hnodup.2 h.2]
    simp only [hfresh, value_of_noDup v h.1]

end

mutual

theorem same_of_eqv : ∀ v w : Json, eqv v w = true → v.noDup = true → v.Same w
  | .null, .null, _, _ => .null
  | .bool a, .bool b, h, _ => of_decide_eq_true h ▸ .bool a
  | .number m, .number n, h, _ => of_decide_eq_true h ▸ .number m
  | .string s, .string t, h, _ => of_decide_eq_true h ▸ .string s
  | .array vs, .array ws, h, hv => .array (sameItems_of_eqv vs ws h hv)
  | .object ms, .object ks, h, hv => by
    rw [eqv, Bool.and_eq_true, decide_eq_true_eq] at h
    rw [Json.noDup, Bool.and_eq_true, decide_eq_true_eq] at hv
    obtain ⟨ns, hsame, hnames, hsub⟩ := sameMembers_of_eqv ms ks h.2 hv.2
    have hnodup : ns.Nodup := List.Nodup.of_map _ (hnames ▸ hv.1)
    have hlength : ns.length = ms.length := by simpa using congrArg List.length hnames
    -- as many members with distinct names, all found in the other object
    exact .object hsame ((List.subperm_of_subset hnodup hsub).perm_of_length_le (by omega))

theorem sameItems_of_eqv : ∀ vs ws : List Json, eqvItems vs ws = true →
    Json.noDupItems vs = true → Json.SameItems vs ws
  | [], [], _, _ => .nil
  | v :: vs, w :: ws, h, hv => by
    rw [eqvItems, Bool.and_eq_true] at h
    rw [Json.noDupItems, Bool.and_eq_true] at hv
    exact .cons (same_of_eqv v w h.1 hv.1) (sameItems_of_eqv vs ws h.2 hv.2)

theorem sameMembers_of_eqv : ∀ ms ks : List (String × Json), eqvMembers ms ks = true →
    Json.noDupMembers ms = true →
    ∃ ns, Json.SameMembers ms ns ∧ ns.map (·.1) = ms.map (·.1) ∧ ns ⊆ ks
  | [], _, _, _ => ⟨[], .nil, rfl, List.nil_subset _⟩
  | (name, v) :: ms, ks, h, hm => by
    rw [eqvMembers, Bool.and_eq_true] at h
    rw [Json.noDupMembers, Bool.and_eq_true] at hm
    obtain ⟨ns, hsame, hnames, hsub⟩ := sameMembers_of_eqv ms ks h.2 hm.2
    cases hlookup : ks.lookup name with
    | none => simp [hlookup] at h
    | some w =>
      have hv : v.Same w := same_of_eqv v w (by simpa [hlookup] using h.1) hm.1
      exact ⟨(name, w) :: ns, .cons hv hsame, by rw [List.map_cons, List.map_cons, hnames],
        List.cons_subset.mpr ⟨mem_of_lookup hlookup, hsub⟩⟩

end

theorem mem_of_sameMembers {ms ns : List (String × Json)} (h : Json.SameMembers ms ns)
    (hmem : (name, v) ∈ ms) : ∃ w, (name, w) ∈ ns ∧ v.Same w := by
  induction ms generalizing ns with
  | nil => cases hmem
  | cons m ms ih =>
    cases h with
    | cons hsame hrest =>
      rcases List.mem_cons.mp hmem with heq | hlater
      · cases heq
        exact ⟨_, List.mem_cons_self, hsame⟩
      · obtain ⟨w, hw, hvw⟩ := ih hrest hlater
        exact ⟨w, List.mem_cons_of_mem _ hw, hvw⟩

theorem mem_of_same {ms ks : List (String × Json)} (h : (Json.object ms).Same (.object ks))
    (hmem : (name, v) ∈ ms) : ∃ w, (name, w) ∈ ks ∧ v.Same w := by
  cases h with
  | object hmembers hperm =>
    obtain ⟨w, hw, hvw⟩ := mem_of_sameMembers hmembers hmem
    exact ⟨w, hperm.mem_iff.mp hw, hvw⟩

end

end Signer.Serde
