import Mathlib.Data.List.Perm.Basic
import Signer.JsonParser

/-!
# `canonical_v1` is a canonical form

Sorting the members at every depth turns a value into one that stands for all its reorderings, and
the canonical text is the compact text of that value.
-/

namespace Signer

open Text

variable {vs : List Json} {ms : List (String × Json)} {v : Json} {text : List Char}

/-! ### The order of names -/

def utf16Char (c : Char) : List ℕ :=
  if c.toNat < 0x10000 then [c.toNat]
  else [0xD800 + (c.toNat - 0x10000) / 0x400, 0xDC00 + (c.toNat - 0x10000) % 0x400]

theorem toNat_scalar (c : Char) : c.toNat < 0xD800 ∨ 0xDFFF < c.toNat ∧ c.toNat < 0x110000 :=
  c.valid

theorem utf16Char_append_inj {c d : Char} {r r' : List ℕ}
    (h : utf16Char c ++ r = utf16Char d ++ r') : c = d ∧ r = r' := by
  have hc := toNat_scalar c
  have hd := toNat_scalar d
  have hchar : c.toNat = d.toNat → c = d := fun heq =>
    (Char.ofNat_toNat c).symm.trans ((congrArg Char.ofNat heq).trans (Char.ofNat_toNat d))
  unfold utf16Char at h
  split_ifs at h with hsmall hsmall' hsmall' <;>
    simp only [List.cons_append, List.nil_append, List.cons.injEq] at h
  · exact ⟨hchar h.1, h.2⟩
  · omega
  · omega
  · exact ⟨hchar (by omega), h.2.2⟩

theorem utf16Char_ne_nil (c : Char) : utf16Char c ≠ [] := by
  unfold utf16Char
  split_ifs <;> simp

theorem flatMap_utf16Char_injective : ∀ cs ds : List Char,
    cs.flatMap utf16Char = ds.flatMap utf16Char → cs = ds
  | [], [], _ => rfl
  | [], d :: ds, h => by simp [utf16Char_ne_nil] at h
  | c :: cs, [], h => by simp [utf16Char_ne_nil] at h
  | c :: cs, d :: ds, h => by
    rw [List.flatMap_cons, List.flatMap_cons] at h
    obtain ⟨rfl, hrest⟩ := utf16Char_append_inj h
    rw [flatMap_utf16Char_injective cs ds hrest]

theorem utf16Units_injective : Function.Injective utf16Units := fun _ _ h =>
  String.toList_inj.mp (flatMap_utf16Char_injective _ _ h)

section

variable {α : Type}

def byName (a b : String × α) : Prop := utf16Units a.1 ≤ utf16Units b.1

instance : DecidableRel (byName (α := α)) := fun a b =>
  inferInstanceAs (Decidable (utf16Units a.1 ≤ utf16Units b.1))

instance : Std.Total (byName (α := α)) := ⟨fun _ _ => le_total _ _⟩

instance : IsTrans (String × α) byName := ⟨fun _ _ _ => le_trans⟩

theorem insertionSort_byName_eq {ms ns : List (String × α)} (h : ms.Perm ns)
    (hnodup : (ns.map (·.1)).Nodup) : ms.insertionSort byName = ns.insertionSort byName := by
  have hms := List.perm_insertionSort byName ms
  have hns := List.perm_insertionSort byName ns
  refine List.Perm.eq_of_pairwise ?_ (List.pairwise_insertionSort byName ms)
    (List.pairwise_insertionSort byName ns) (hms.trans (h.trans hns.symm))
  intro a b ha hb hab hba
  have hname : a.1 = b.1 := utf16Units_injective (le_antisymm hab hba)
  exact List.inj_on_of_nodup_map hnodup (h.mem_iff.mp (hms.mem_iff.mp ha)) (hns.mem_iff.mp hb)
    hname

end

/-! ### Values up to the order of members -/

namespace Json

mutual

/-- Equal up to the order of members, at every depth. -/
inductive Same : Json → Json → Prop
  | null : Same .null .null
  | bool (b : Bool) : Same (.bool b) (.bool b)
  | number (n : JsonNumber) : Same (.number n) (.number n)
  | string (s : String) : Same (.string s) (.string s)
  | array {vs ws : List Json} : SameItems vs ws → Same (.array vs) (.array ws)
  | object {ms ns ks : List (String × Json)} : SameMembers ms ns → ns.Perm ks →
      Same (.object ms) (.object ks)

inductive SameItems : List Json → List Json → Prop
  | nil : SameItems [] []
  | cons {v w : Json} {vs ws : List Json} : Same v w → SameItems vs ws →
      SameItems (v :: vs) (w :: ws)

inductive SameMembers : List (String × Json) → List (String × Json) → Prop
  | nil : SameMembers [] []
  | cons {name : String} {v w : Json} {ms ns : List (String × Json)} : Same v w →
      SameMembers ms ns → SameMembers ((name, v) :: ms) ((name, w) :: ns)

end

mutual

def sorted : Json → Json
  | .array items => .array (sortedItems items)
  | .object members => .object ((sortedMembers members).insertionSort byName)
  | value => value

def sortedItems : List Json → List Json
  | [] => []
  | item :: items => item.sorted :: sortedItems items

def sortedMembers : List (String × Json) → List (String × Json)
  | [] => []
  | (name, value) :: members => (name, value.sorted) :: sortedMembers members

end

theorem sortedMembers_eq (ms : List (String × Json)) :
    sortedMembers ms = ms.map fun m => (m.1, m.2.sorted) := by
  induction ms with
  | nil => rfl
  | cons m ms ih => rw [sortedMembers, ih, List.map_cons]

theorem names_sortedMembers (ms : List (String × Json)) :
    (sortedMembers ms).map (·.1) = ms.map (·.1) := by
  simp [sortedMembers_eq]

theorem numberFreeMembers_iff :
    numberFreeMembers ms = true ↔ ∀ m ∈ ms, m.2.numberFree = true := by
  induction ms with
  | nil => simp [numberFreeMembers]
  | cons m ms ih => simp [numberFreeMembers, ih]

theorem noDupMembers_iff :
    noDupMembers ms = true ↔ ∀ m ∈ ms, m.2.noDup = true := by
  induction ms with
  | nil => simp [noDupMembers]
  | cons m ms ih => simp [noDupMembers, ih]

theorem depthMembers_le_iff {n : ℕ} :
    depthMembers ms ≤ n ↔ ∀ m ∈ ms, m.2.depth ≤ n := by
  induction ms with
  | nil => simp [depthMembers]
  | cons m ms ih => simp [depthMembers, ih]

mutual

theorem numberFree_sorted : ∀ v : Json, v.sorted.numberFree = v.numberFree
  | .null | .bool _ | .number _ | .string _ => rfl
  | .array vs => numberFreeItems_sorted vs
  | .object ms => by
    have hperm := List.perm_insertionSort byName (sortedMembers ms)
    rw [sorted, numberFree, numberFree, ← numberFreeMembers_sorted ms, Bool.eq_iff_iff,
      numberFreeMembers_iff, numberFreeMembers_iff]
    exact forall_congr' fun m => imp_congr_left hperm.mem_iff

theorem numberFreeItems_sorted : ∀ vs : List Json,
    numberFreeItems (sortedItems vs) = numberFreeItems vs
  | [] => rfl
  | v :: vs => by
    rw [sortedItems, numberFreeItems, numberFreeItems, numberFree_sorted v,
      numberFreeItems_sorted vs]

theorem numberFreeMembers_sorted : ∀ ms : List (String × Json),
    numberFreeMembers (sortedMembers ms) = numberFreeMembers ms
  | [] => rfl
  | (name, v) :: ms => by
    rw [sortedMembers, numberFreeMembers, numberFreeMembers, numberFree_sorted v,
      numberFreeMembers_sorted ms]

end

mutual

theorem noDup_sorted : ∀ v : Json, v.noDup = true → v.sorted.noDup = true
  | .null, h | .bool _, h | .number _, h | .string _, h => h
  | .array vs, h => noDupItems_sorted vs h
  | .object ms, h => by
    simp only [noDup, Bool.and_eq_true, decide_eq_true_eq] at h
    have hperm := List.perm_insertionSort byName (sortedMembers ms)
    have hmembers := noDupMembers_iff.mp (noDupMembers_sorted ms h.2)
    simp only [sorted, noDup, Bool.and_eq_true, decide_eq_true_eq]
    refine ⟨?_, noDupMembers_iff.mpr fun m hm => hmembers m (hperm.mem_iff.mp hm)⟩
    rw [(hperm.map _).nodup_iff, names_sortedMembers]
    exact h.1

theorem noDupItems_sorted : ∀ vs : List Json, noDupItems vs = true →
    noDupItems (sortedItems vs) = true
  | [], _ => rfl
  | v :: vs, h => by
    simp only [noDupItems, Bool.and_eq_true] at h
    simp only [sortedItems, noDupItems, noDup_sorted v h.1, noDupItems_sorted vs h.2, Bool.and_self]

theorem noDupMembers_sorted : ∀ ms : List (String × Json), noDupMembers ms = true →
    noDupMembers (sortedMembers ms) = true
  | [], _ => rfl
  | (name, v) :: ms, h => by
    simp only [noDupMembers, Bool.and_eq_true] at h
    simp only [sortedMembers, noDupMembers, noDup_sorted v h.1, noDupMembers_sorted ms h.2,
      Bool.and_self]

end

mutual

theorem depth_sorted_le : ∀ v : Json, v.sorted.depth ≤ v.depth
  | .null | .bool _ | .number _ | .string _ => Nat.le_refl _
  | .array vs => Nat.succ_le_succ (depthItems_sorted_le vs)
  | .object ms => by
    have hperm := List.perm_insertionSort byName (sortedMembers ms)
    have hmembers := depthMembers_le_iff.mp (depthMembers_sorted_le ms)
    rw [sorted, depth, depth]
    exact Nat.succ_le_succ (depthMembers_le_iff.mpr fun m hm => hmembers m (hperm.mem_iff.mp hm))

theorem depthItems_sorted_le : ∀ vs : List Json, depthItems (sortedItems vs) ≤ depthItems vs
  | [] => Nat.le_refl _
  | v :: vs => by
    have hv := depth_sorted_le v
    have hvs := depthItems_sorted_le vs
    simp only [sortedItems, depthItems]
    omega

theorem depthMembers_sorted_le : ∀ ms : List (String × Json),
    depthMembers (sortedMembers ms) ≤ depthMembers ms
  | [] => Nat.le_refl _
  | (name, v) :: ms => by
    have hv := depth_sorted_le v
    have hms := depthMembers_sorted_le ms
    simp only [sortedMembers, depthMembers]
    omega

end

mutual

theorem sorted_sorted : ∀ v : Json, v.sorted.sorted = v.sorted
  | .null | .bool _ | .number _ | .string _ => rfl
  | .array vs => by rw [sorted, sorted, sortedItems_sortedItems vs]
  | .object ms => by
    have hsorted := List.pairwise_insertionSort byName (sortedMembers ms)
    have hfixed : sortedMembers ((sortedMembers ms).insertionSort byName) =
        (sortedMembers ms).insertionSort byName := by
      rw [sortedMembers_eq, List.map_congr_left (g := id), List.map_id]
      intro m hm
      exact Prod.ext rfl (sorted_of_mem_sortedMembers ms m ((List.mem_insertionSort _).mp hm))
    rw [sorted, sorted, hfixed, hsorted.insertionSort_eq]

theorem sortedItems_sortedItems : ∀ vs : List Json,
    sortedItems (sortedItems vs) = sortedItems vs
  | [] => rfl
  | v :: vs => by rw [sortedItems, sortedItems, sorted_sorted v, sortedItems_sortedItems vs]

theorem sorted_of_mem_sortedMembers : ∀ (ms : List (String × Json)), ∀ m ∈ sortedMembers ms,
    m.2.sorted = m.2
  | (name, v) :: ms, m, hm => by
    rw [sortedMembers] at hm
    rcases List.mem_cons.mp hm with rfl | hm
    · exact sorted_sorted v
    · exact sorted_of_mem_sortedMembers ms m hm

end

mutual

theorem Same.sorted_eq : ∀ {v w : Json}, v.Same w → w.noDup = true → v.sorted = w.sorted
  | _, _, .null, _ | _, _, .bool _, _ | _, _, .number _, _ | _, _, .string _, _ => rfl
  | _, _, .array h, hdup => congrArg Json.array (h.sorted_eq hdup)
  | _, _, @Same.object _ ns _ h hperm, hdup => by
    simp only [noDup, Bool.and_eq_true, decide_eq_true_eq] at hdup
    have hns : noDupMembers ns = true := noDupMembers_iff.mpr fun m hm =>
      noDupMembers_iff.mp hdup.2 m (hperm.mem_iff.mp hm)
    rw [sorted, sorted, h.sorted_eq hns]
    refine congrArg Json.object (insertionSort_byName_eq ?_ ?_)
    · rw [sortedMembers_eq, sortedMembers_eq]
      exact hperm.map _
    · rw [names_sortedMembers]
      exact hdup.1

theorem SameItems.sorted_eq : ∀ {vs ws : List Json}, SameItems vs ws → noDupItems ws = true →
    sortedItems vs = sortedItems ws
  | _, _, .nil, _ => rfl
  | _, _, .cons hv hvs, hdup => by
    simp only [noDupItems, Bool.and_eq_true] at hdup
    rw [sortedItems, sortedItems, hv.sorted_eq hdup.1, hvs.sorted_eq hdup.2]

theorem SameMembers.sorted_eq : ∀ {ms ns : List (String × Json)}, SameMembers ms ns →
    noDupMembers ns = true → sortedMembers ms = sortedMembers ns
  | _, _, .nil, _ => rfl
  | _, _, .cons hv hms, hdup => by
    simp only [noDupMembers, Bool.and_eq_true] at hdup
    rw [sortedMembers, sortedMembers, hv.sorted_eq hdup.1, hms.sorted_eq hdup.2]

end

mutual

theorem same_of_sorted_eq : ∀ {v w : Json}, v.sorted = w.sorted → v.Same w
  | .null, w, h => by
    cases w <;> simp only [sorted, reduceCtorEq] at h
    exact .null
  | .bool b, w, h => by
    cases w <;> simp only [sorted, reduceCtorEq, Json.bool.injEq] at h
    exact h ▸ .bool b
  | .number n, w, h => by
    cases w <;> simp only [sorted, reduceCtorEq, Json.number.injEq] at h
    exact h ▸ .number n
  | .string s, w, h => by
    cases w <;> simp only [sorted, reduceCtorEq, Json.string.injEq] at h
    exact h ▸ .string s
  | .array vs, w, h => by
    cases w <;> simp only [sorted, reduceCtorEq, Json.array.injEq] at h
    exact .array (sameItems_of_sorted_eq h)
  | .object ms, w, h => by
    cases w <;> simp only [sorted, reduceCtorEq, Json.object.injEq] at h
    rename_i ks
    have hperm : (sortedMembers ms).Perm (sortedMembers ks) :=
      (List.perm_insertionSort byName _).symm.trans (h ▸ List.perm_insertionSort byName _)
    rw [sortedMembers_eq ks] at hperm
    -- the reordering of the sorted members is one of the members of the other object
    obtain ⟨ns, hns, hnsperm⟩ := List.perm_comp_forall₂ hperm
      (List.forall₂_map_left_iff.mpr (List.forall₂_same.mpr fun m _ => rfl) :
        List.Forall₂ (fun m n => m = (n.1, n.2.sorted)) (ks.map fun m => (m.1, m.2.sorted)) ks)
    have hsorted : sortedMembers ms = sortedMembers ns := by
      rw [sortedMembers_eq ns]
      exact List.forall₂_eq_eq_eq ▸ List.forall₂_map_right_iff.mpr hns
    exact .object (sameMembers_of_sorted_eq hsorted) hnsperm

theorem sameItems_of_sorted_eq : ∀ {vs ws : List Json}, sortedItems vs = sortedItems ws →
    SameItems vs ws
  | [], [], _ => .nil
  | v :: vs, w :: ws, h => by
    simp only [sortedItems, List.cons.injEq] at h
    exact .cons (same_of_sorted_eq h.1) (sameItems_of_sorted_eq h.2)

theorem sameMembers_of_sorted_eq : ∀ {ms ns : List (String × Json)},
    sortedMembers ms = sortedMembers ns → SameMembers ms ns
  | [], [], _ => .nil
  | (name, v) :: ms, (name', w) :: ns, h => by
    simp only [sortedMembers, List.cons.injEq, Prod.mk.injEq] at h
    obtain ⟨⟨rfl, hv⟩, hms⟩ := h
    exact .cons (same_of_sorted_eq hv) (sameMembers_of_sorted_eq hms)

end

theorem same_iff_sorted_eq {w : Json} (hw : w.noDup = true) :
    v.Same w ↔ v.sorted = w.sorted :=
  ⟨fun h => h.sorted_eq hw, same_of_sorted_eq⟩

end Json

/-! ### The canonical text is the compact text of the sorted value -/

def textOf (v : Json) : List Char := (compactText v).getD []

theorem commaSeparated_cons (text : List Char) (texts : List (List Char)) :
    commaSeparated (text :: texts) = text ++ texts.flatMap (',' :: ·) := by
  induction texts generalizing text with
  | nil => simp [commaSeparated]
  | cons text' texts ih =>
    have hstep : commaSeparated (text :: text' :: texts) =
        text ++ ',' :: commaSeparated (text' :: texts) := by
      simp [commaSeparated, List.intercalate]
    rw [hstep, ih, List.flatMap_cons, List.cons_append]

theorem compactText_eq_textOf (h : (compactText v).isSome) :
    compactText v = some (textOf v) := by
  obtain ⟨text, htext⟩ := Option.isSome_iff_exists.mp h
  rw [textOf, htext, Option.getD_some]

theorem compactItems_eq (h : ∀ v ∈ vs, (compactText v).isSome) :
    compactItems vs = some ((vs.map textOf).flatMap (',' :: ·) ++ [']']) := by
  induction vs with
  | nil => rfl
  | cons v vs ih =>
    rw [List.forall_mem_cons] at h
    rw [compactItems, compactText_eq_textOf h.1, ih h.2]
    simp

theorem compactText_array (h : ∀ v ∈ vs, (compactText v).isSome) :
    compactText (.array vs) = some ('[' :: commaSeparated (vs.map textOf) ++ [']']) := by
  cases vs with
  | nil => rfl
  | cons v vs =>
    rw [List.forall_mem_cons] at h
    rw [compactText, compactText_eq_textOf h.1, compactItems_eq h.2, List.map_cons,
      commaSeparated_cons]
    simp

def memberText (m : String × List Char) : List Char := jcsString m.1 ++ ':' :: m.2

theorem compactMembers_eq (h : ∀ m ∈ ms, (compactText m.2).isSome) :
    compactMembers ms =
      some ((ms.map fun m => memberText (m.1, textOf m.2)).flatMap (',' :: ·) ++ ['\x7d']) := by
  induction ms with
  | nil => rfl
  | cons m ms ih =>
    rw [List.forall_mem_cons] at h
    rw [compactMembers, compactText_eq_textOf h.1, ih h.2]
    simp [memberText]

theorem compactText_object (h : ∀ m ∈ ms, (compactText m.2).isSome) :
    compactText (.object ms) =
      some ('\x7b' :: commaSeparated (ms.map fun m => memberText (m.1, textOf m.2)) ++
        ['\x7d']) := by
  cases ms with
  | nil => rfl
  | cons m ms =>
    rw [List.forall_mem_cons] at h
    rw [compactText, compactText_eq_textOf h.1, compactMembers_eq h.2, List.map_cons,
      commaSeparated_cons]
    simp [memberText]

theorem sortMembers_map (ms : List (String × Json)) :
    sortMembers (ms.map fun m => (m.1, textOf m.2)) =
      (ms.insertionSort byName).map fun m => (m.1, textOf m.2) :=
  (List.map_insertionSort byName byName (fun m => (m.1, textOf m.2)) ms
    fun _ _ _ _ => Iff.rfl).symm

mutual

theorem canonicalText_eq : ∀ v : Json, v.numberFree = true →
    canonicalText v = compactText v.sorted ∧ (compactText v.sorted).isSome
  | .null, _ | .bool true, _ | .bool false, _ | .string _, _ => ⟨rfl, rfl⟩
  | .number _, h => by simp [Json.numberFree] at h
  | .array vs, h => by
    obtain ⟨hitems, hsome⟩ := canonicalItems_eq vs h
    rw [Json.sorted, compactText_array hsome, canonicalText, hitems]
    exact ⟨rfl, rfl⟩
  | .object ms, h => by
    obtain ⟨hmembers, hsome⟩ := canonicalMembers_eq ms h
    have hsort : ∀ m ∈ (Json.sortedMembers ms).insertionSort byName,
        (compactText m.2).isSome := fun m hm => hsome m ((List.mem_insertionSort _).mp hm)
    rw [Json.sorted, compactText_object hsort, canonicalText, hmembers]
    simp [sortMembers_map, memberText, Function.comp_def]

theorem canonicalItems_eq : ∀ vs : List Json, Json.numberFreeItems vs = true →
    canonicalItems vs = some ((Json.sortedItems vs).map textOf) ∧
      ∀ v ∈ Json.sortedItems vs, (compactText v).isSome
  | [], _ => ⟨rfl, by simp [Json.sortedItems]⟩
  | v :: vs, h => by
    simp only [Json.numberFreeItems, Bool.and_eq_true] at h
    obtain ⟨hvalue, hvalueSome⟩ := canonicalText_eq v h.1
    obtain ⟨hitems, hitemsSome⟩ := canonicalItems_eq vs h.2
    refine ⟨?_, List.forall_mem_cons.mpr ⟨hvalueSome, hitemsSome⟩⟩
    rw [canonicalItems, hvalue, hitems, compactText_eq_textOf hvalueSome]
    rfl

theorem canonicalMembers_eq : ∀ ms : List (String × Json), Json.numberFreeMembers ms = true →
    canonicalMembers ms = some ((Json.sortedMembers ms).map fun m => (m.1, textOf m.2)) ∧
      ∀ m ∈ Json.sortedMembers ms, (compactText m.2).isSome
  | [], _ => ⟨rfl, by simp [Json.sortedMembers]⟩
  | (name, v) :: ms, h => by
    simp only [Json.numberFreeMembers, Bool.and_eq_true] at h
    obtain ⟨hvalue, hvalueSome⟩ := canonicalText_eq v h.1
    obtain ⟨hmembers, hmembersSome⟩ := canonicalMembers_eq ms h.2
    refine ⟨?_, List.forall_mem_cons.mpr ⟨hvalueSome, hmembersSome⟩⟩
    rw [canonicalMembers, hvalue, hmembers, compactText_eq_textOf hvalueSome]
    rfl

end

mutual

theorem numberFree_of_canonicalText : ∀ v : Json, (canonicalText v).isSome →
    v.numberFree = true
  | .null, _ | .bool true, _ | .bool false, _ | .string _, _ => rfl
  | .number _, h => by simp [canonicalText] at h
  | .array vs, h => by
    rw [canonicalText] at h
    exact numberFreeItems_of_canonicalItems vs (Option.isSome_of_isSome_bind h)
  | .object ms, h => by
    rw [canonicalText] at h
    exact numberFreeMembers_of_canonicalMembers ms (Option.isSome_of_isSome_bind h)

theorem numberFreeItems_of_canonicalItems : ∀ vs : List Json, (canonicalItems vs).isSome →
    Json.numberFreeItems vs = true
  | [], _ => rfl
  | v :: vs, h => by
    simp only [canonicalItems, Option.bind_eq_bind, Option.isSome_bind, Option.pure_def,
      Option.any_eq_true_iff_get] at h
    obtain ⟨hv, hvs, -⟩ := h
    rw [Json.numberFreeItems, numberFree_of_canonicalText v hv,
      numberFreeItems_of_canonicalItems vs hvs, Bool.and_self]

theorem numberFreeMembers_of_canonicalMembers : ∀ ms : List (String × Json),
    (canonicalMembers ms).isSome → Json.numberFreeMembers ms = true
  | [], _ => rfl
  | (name, v) :: ms, h => by
    simp only [canonicalMembers, Option.bind_eq_bind, Option.isSome_bind, Option.pure_def,
      Option.any_eq_true_iff_get] at h
    obtain ⟨hv, hms, -⟩ := h
    rw [Json.numberFreeMembers, numberFree_of_canonicalText v hv,
      numberFreeMembers_of_canonicalMembers ms hms, Bool.and_self]

end

/-! ### The canonical form -/

theorem canonicalV1_isSome_iff (v : Json) : (canonicalV1 v).isSome ↔ v.numberFree = true := by
  rw [canonicalV1, Option.isSome_map]
  refine ⟨numberFree_of_canonicalText v, fun h => ?_⟩
  obtain ⟨htext, hsome⟩ := canonicalText_eq v h
  rwa [htext]

theorem canonicalV1_eq_some_iff :
    canonicalV1 v = some (bytes (.ofList text)) ↔
      v.numberFree = true ∧ compactText v.sorted = some text := by
  constructor
  · intro h
    have hnumber := (canonicalV1_isSome_iff v).mp (by rw [h]; rfl)
    obtain ⟨htext, hsome⟩ := canonicalText_eq v hnumber
    obtain ⟨text', htext'⟩ := Option.isSome_iff_exists.mp hsome
    rw [canonicalV1, htext, htext', Option.map_some, Option.some.injEq] at h
    refine ⟨hnumber, htext'.trans (congrArg some ?_)⟩
    exact String.ofList_injective (bytes_injective h)
  · rintro ⟨hnumber, htext⟩
    rw [canonicalV1, (canonicalText_eq v hnumber).1, htext, Option.map_some]

theorem canonicalV1_sorted (h : canonicalV1 v = some (bytes (.ofList text))) :
    canonicalV1 v.sorted = some (bytes (.ofList text)) := by
  obtain ⟨hnumber, htext⟩ := canonicalV1_eq_some_iff.mp h
  refine canonicalV1_eq_some_iff.mpr ⟨(Json.numberFree_sorted v).trans hnumber, ?_⟩
  rw [Json.sorted_sorted, htext]

theorem canonicalV1_eq_iff_sorted_eq {w : Json} (hv : canonicalV1 v = some (bytes (.ofList text))) :
    canonicalV1 w = some (bytes (.ofList text)) ↔ v.sorted = w.sorted := by
  obtain ⟨hnumber, htext⟩ := canonicalV1_eq_some_iff.mp hv
  rw [canonicalV1_eq_some_iff]
  constructor
  · rintro ⟨-, hwtext⟩
    have hend : NoDigit [] := rfl
    exact (compactText_append_inj _ _ htext hwtext hend hend rfl).1
  · intro hsorted
    rw [← hsorted, ← Json.numberFree_sorted w, ← hsorted, Json.numberFree_sorted]
    exact ⟨hnumber, htext⟩

/-- Among the values without repeated names, exactly those without numbers have canonical
bytes; the bytes of two values agree exactly when the values do up to the order of members; and
within the recursion limit the parser reads from the bytes of a value one that agrees with it up
to the order of members and has these bytes again. -/
theorem canonicalV1_canonical (readNumber : List Char → Option (JsonNumber × List Char)) :
    (∀ v : Json, v.noDup = true → ((canonicalV1 v).isSome ↔ v.numberFree = true)) ∧
    (∀ v w : Json, v.noDup = true → w.noDup = true → ∀ bytes, canonicalV1 v = some bytes →
      (canonicalV1 w = some bytes ↔ v.Same w)) ∧
    ∀ v : Json, v.noDup = true → v.depth < recursionLimit → ∀ s,
      canonicalV1 v = some (bytes s) →
      ∃ v', parseJsonNoDupKeys readNumber s = some v' ∧ v'.Same v ∧
        canonicalV1 v' = some (bytes s) := by
  refine ⟨fun v _ => canonicalV1_isSome_iff v, fun v w _ hw bytes hv => ?_,
    fun v hdup hdepth s hv => ?_⟩
  · obtain ⟨text, -, rfl⟩ := Option.map_eq_some_iff.mp hv
    rw [Json.same_iff_sorted_eq hw]
    exact canonicalV1_eq_iff_sorted_eq hv
  · rw [← String.ofList_toList (s := s)] at hv ⊢
    obtain ⟨hnumber, htext⟩ := canonicalV1_eq_some_iff.mp hv
    refine ⟨v.sorted, ?_, Json.same_of_sorted_eq (Json.sorted_sorted v), canonicalV1_sorted hv⟩
    exact parseJsonNoDupKeys_compactText readNumber htext
      ((Json.numberFree_sorted v).trans hnumber) (Json.noDup_sorted v hdup)
      ((Json.depth_sorted_le v).trans_lt hdepth)

namespace Sample

def unordered : Json := .object [("b", .array [.bool true]), ("a", .string "x")]

def ordered : Json := .object [("a", .string "x"), ("b", .array [.bool true])]

end Sample

/-- Two orders of the same members have the same bytes, from which the value is read back. -/
theorem canonicalV1_canonical_unordered :
    (canonicalV1 Sample.unordered).isSome ∧
    Sample.unordered.Same Sample.ordered ∧
    ∃ v, parseJsonNoDupKeys (fun _ => none) "\x7b\"a\":\"x\",\"b\":[true]\x7d" = some v ∧
      v.Same Sample.unordered := by
  obtain ⟨hnumber, hsame, hparse⟩ := canonicalV1_canonical fun _ => none
  have hbytes : canonicalV1 Sample.unordered =
      some (bytes "\x7b\"a\":\"x\",\"b\":[true]\x7d") := by decide +kernel
  have hordered : canonicalV1 Sample.ordered =
      some (bytes "\x7b\"a\":\"x\",\"b\":[true]\x7d") := by decide +kernel
  refine ⟨(hnumber _ (by decide)).mpr (by decide), ?_, ?_⟩
  · exact (hsame _ _ (by decide) (by decide) _ hbytes).mp hordered
  · obtain ⟨v, hv, hvsame, -⟩ := hparse _ (by decide) (by decide) _ hbytes
    exact ⟨v, hv, hvsame⟩

end Signer
