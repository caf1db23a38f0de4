import Signer.Contract.MeasurementHistory
import Signer.Sample
import Signer.Service.Holding

/-!
# Runs of the measurement registry

What the registry is for: every owner stands for at most one measurement, and no measurement has two
owners. The contract keeps this twice, as the last record of a history and in the mapping from
hashes to owners.
-/

namespace Signer.Contract

variable {o : Address} {pcr0 : Bytes}

/-! ### The storage -/

theorem Context.now_ne_zero (ctx : Context) : ctx.now ≠ 0 := by
  intro h
  have htoNat : ctx.timestamp = 0 := by
    have hsame := congrArg UInt64.toNat h
    rwa [Context.now, UInt64.toNat_ofNat_of_lt' ctx.timestamp_lt] at hsame
  exact absurd htoNat ctx.timestamp_pos.ne'

section

variable (keccak256 : Bytes → Bytes)

def ownerOf (s : Storage) (m : Measurement) : Option Address :=
  if s.activePCR0OwnerByHash (keccak256 m.1) = 0 then none
  else some (s.activePCR0OwnerByHash (keccak256 m.1))

/-- Histories and mapping both show the holding. -/
structure Represents (s : Storage) (H : Holding Address Measurement) : Prop where
  last : ∀ o, OnlyLastActive (s.records o)
  held : ∀ o, heldBy (s.records o) = H.held o
  index : Holding.Indexes (ownerOf keccak256 s) H

open Classical in
noncomputable def holdingStep (H : Holding Address Measurement) (tx : Context × Call) :
    Holding Address Measurement :=
  match tx.2 with
  | .registerPCR0 pcr0 _ _ =>
    if h : ∃ hlen : pcr0.length = 48, H.Free ⟨pcr0, hlen⟩ then
      (H.release tx.1.sender).take tx.1.sender ⟨pcr0, h.fst⟩ (h.snd.release _)
    else H
  | .deprecatePCR0 pcr0 =>
    if ∃ hlen : pcr0.length = 48, H.held tx.1.sender = some ⟨pcr0, hlen⟩ then
      H.release tx.1.sender
    else H

theorem represents_empty : Represents keccak256 .empty .empty where
  last _ := onlyLastActive_nil
  held _ := rfl
  index _ _ := by simp [ownerOf, Storage.empty, Holding.empty]

end

section

variable {keccak256 : Bytes → Bytes} {s s' : Storage} {H : Holding Address Measurement}
  {ctx : Context} {m : Measurement} {events : List ContractEvent}

theorem ownerOf_eq_none_iff :
    ownerOf keccak256 s m = none ↔ s.activePCR0OwnerByHash (keccak256 m.1) = 0 := by
  rw [ownerOf]
  split <;> simp_all

theorem ownerOf_eq_some_iff : ownerOf keccak256 s m = some o ↔
    s.activePCR0OwnerByHash (keccak256 m.1) = o ∧ o ≠ 0 := by
  rw [ownerOf]
  split
  · rename_i hzero
    rw [hzero]
    simp only [reduceCtorEq, false_iff, not_and, not_not]
    exact Eq.symm
  · rename_i hzero
    rw [Option.some.injEq]
    constructor
    · rintro rfl
      exact ⟨rfl, hzero⟩
    · exact And.left

variable (hkeccak : Function.Injective keccak256) (h : Represents keccak256 s H)

include hkeccak in
theorem ownerOf_update (records : Address → List PCR0Record) (owners : Bytes → Address)
    (m : Measurement) (o : Address) :
    ownerOf keccak256 ⟨records, Function.update owners (keccak256 m.1) o⟩ =
      Function.update (ownerOf keccak256 ⟨records, owners⟩) m (if o = 0 then none else some o) := by
  funext m'
  by_cases hm : m' = m
  · subst hm
    simp [ownerOf]
  · have hhash : keccak256 m'.1 ≠ keccak256 m.1 := fun h => hm (Subtype.ext (hkeccak h))
    simp [ownerOf, Function.update_of_ne hhash, Function.update_of_ne hm]

include h in
theorem Represents.update {rs : List PCR0Record} {owners : Bytes → Address}
    {H' : Holding Address Measurement} (hlast : OnlyLastActive rs)
    (hheld : heldBy rs = H'.held o) (hother : ∀ o' ≠ o, H'.held o' = H.held o')
    (hindex : Holding.Indexes (ownerOf keccak256 ⟨s.records, owners⟩) H') :
    Represents keccak256 ⟨Function.update s.records o rs, owners⟩ H' where
  last o' := by
    by_cases ho : o' = o
    · subst ho
      simpa using hlast
    · simpa [Function.update_of_ne ho] using h.last o'
  held o' := by
    by_cases ho : o' = o
    · subst ho
      simpa using hheld
    · simpa [Function.update_of_ne ho, hother o' ho] using h.held o'
  index := hindex

include hkeccak h in
theorem Represents.retire (hheld : H.held ctx.sender = some m) :
    Represents keccak256
      ⟨Function.update s.records ctx.sender (Contract.retire ctx.now (s.records ctx.sender)),
        Function.update s.activePCR0OwnerByHash (keccak256 m.1) 0⟩ (H.release ctx.sender) := by
  refine h.update (onlyLastActive_retire (h.last _) ctx.now_ne_zero) ?_
    (fun o' ho => Holding.held_release_of_ne ho) ?_
  · rw [heldBy_retire (h.last _) ctx.now_ne_zero, Holding.held_release_self]
  · rw [ownerOf_update hkeccak]
    exact h.index.release hheld

theorem autoDeprecate_of_not_held (h : heldBy (s.records ctx.sender) = none) :
    (autoDeprecate keccak256 ctx s).1 = s := by
  rcases List.eq_nil_or_concat' (s.records ctx.sender) with hrs | ⟨front, last, hrs⟩
  · simp [autoDeprecate, hrs]
  · rw [hrs, heldBy_concat] at h
    split at h
    · cases h
    rename_i hactive
    simp [autoDeprecate, hrs, hactive]

theorem autoDeprecate_of_held (h : heldBy (s.records ctx.sender) = some m) :
    (autoDeprecate keccak256 ctx s).1 =
      ⟨Function.update s.records ctx.sender (Contract.retire ctx.now (s.records ctx.sender)),
        Function.update s.activePCR0OwnerByHash (keccak256 m.1) 0⟩ := by
  obtain ⟨front, last, hrs, rfl, hactive⟩ := exists_of_heldBy h
  simp [autoDeprecate, hrs, hactive, retire_of_held]

include hkeccak h in
theorem Represents.autoDeprecate :
    Represents keccak256 (autoDeprecate keccak256 ctx s).1 (H.release ctx.sender) := by
  cases hheld : heldBy (s.records ctx.sender) with
  | none =>
    rw [autoDeprecate_of_not_held hheld, Holding.release_of_none ((h.held _).symm.trans hheld)]
    exact h
  | some m =>
    rw [autoDeprecate_of_held hheld]
    exact h.retire hkeccak ((h.held _).symm.trans hheld)

include hkeccak h in
theorem Represents.append {added : PCR0Record} (hnone : H.held ctx.sender = none)
    (hactive : added.deprecatedAt = 0) (hadded : added.pcr0 = m) (hfree : H.Free m) :
    Represents keccak256
      ⟨Function.update s.records ctx.sender (s.records ctx.sender ++ [added]),
        Function.update s.activePCR0OwnerByHash (keccak256 m.1) ctx.sender⟩
      (H.take ctx.sender m hfree) := by
  refine h.update ?_ ?_ (fun o' ho => Holding.held_take_of_ne hfree ho) ?_
  · rw [onlyLastActive_concat]
    exact deprecated_of_not_held (h.last _) ((h.held _).trans hnone)
  · rw [heldBy_concat, if_pos hactive, hadded, Holding.held_take_self]
  · rw [ownerOf_update hkeccak, if_neg ctx.sender_ne_zero]
    exact h.index.take hnone hfree

variable {buildHash description : Bytes}

theorem registerPCR0_eq_ok
    (h : registerPCR0 keccak256 ctx pcr0 buildHash description s = .ok (s', events)) :
    ∃ hlen : pcr0.length = 48, ownerOf keccak256 s ⟨pcr0, hlen⟩ = none ∧ ∃ added : PCR0Record,
      added.pcr0 = ⟨pcr0, hlen⟩ ∧ added.deprecatedAt = 0 ∧
      s' = ⟨Function.update (autoDeprecate keccak256 ctx s).1.records ctx.sender
          ((autoDeprecate keccak256 ctx s).1.records ctx.sender ++ [added]),
        Function.update (autoDeprecate keccak256 ctx s).1.activePCR0OwnerByHash
          (keccak256 pcr0) ctx.sender⟩ := by
  by_cases hlen : pcr0.length = 48
  · simp only [registerPCR0, validPCR0, dif_pos hlen] at h
    split at h
    · cases h
    rename_i howner
    simp only [Except.ok.injEq, Prod.mk.injEq] at h
    exact ⟨hlen, ownerOf_eq_none_iff.mpr (not_not.mp howner), _, rfl, rfl, h.1.symm⟩
  · simp [registerPCR0, validPCR0, hlen] at h

theorem deprecatePCR0_eq_ok (h : deprecatePCR0 keccak256 ctx pcr0 s = .ok (s', events)) :
    ∃ hlen : pcr0.length = 48, ownerOf keccak256 s ⟨pcr0, hlen⟩ = some ctx.sender ∧
      s' = ⟨Function.update s.records ctx.sender (deprecateFrom keccak256 (keccak256 pcr0) ctx.now
          (s.records ctx.sender) (s.records ctx.sender).length),
        Function.update s.activePCR0OwnerByHash (keccak256 pcr0) 0⟩ := by
  by_cases hlen : pcr0.length = 48
  · simp only [deprecatePCR0, validPCR0, dif_pos hlen] at h
    split at h
    · cases h
    · split at h
      · cases h
      · rename_i howner
        simp only [Except.ok.injEq, Prod.mk.injEq] at h
        exact ⟨hlen, ownerOf_eq_some_iff.mpr ⟨not_not.mp howner, ctx.sender_ne_zero⟩, h.1.symm⟩
  · simp [deprecatePCR0, validPCR0, hlen] at h

variable {hlen : pcr0.length = 48}

theorem exists_registerPCR0_eq_ok
    (h : ownerOf keccak256 s ⟨pcr0, hlen⟩ = none) (ctx : Context) (buildHash description : Bytes) :
    ∃ s' events, registerPCR0 keccak256 ctx pcr0 buildHash description s = .ok (s', events) := by
  have howner := ownerOf_eq_none_iff.mp h
  simp [registerPCR0, validPCR0, hlen, howner]

theorem exists_deprecatePCR0_eq_ok
    (h : ownerOf keccak256 s ⟨pcr0, hlen⟩ = some ctx.sender) :
    ∃ s' events, deprecatePCR0 keccak256 ctx pcr0 s = .ok (s', events) := by
  obtain ⟨howner, hne⟩ := ownerOf_eq_some_iff.mp h
  simp only [deprecatePCR0, validPCR0, dif_pos hlen, howner, if_neg hne, ne_eq, not_true_eq_false,
    if_false]
  exact ⟨_, _, rfl⟩

theorem holdingStep_register
    (hfree : H.Free ⟨pcr0, hlen⟩) :
    holdingStep H (ctx, .registerPCR0 pcr0 buildHash description) =
      (H.release ctx.sender).take ctx.sender ⟨pcr0, hlen⟩ (hfree.release _) :=
  dif_pos ⟨hlen, hfree⟩

theorem holdingStep_deprecate
    (hheld : H.held ctx.sender = some ⟨pcr0, hlen⟩) :
    holdingStep H (ctx, .deprecatePCR0 pcr0) = H.release ctx.sender := if_pos ⟨hlen, hheld⟩

include h in
theorem Represents.holdingStep_of_error {call : Call}
    {e : ContractError} (herror : call.exec keccak256 ctx s = .error e) :
    holdingStep H (ctx, call) = H := by
  cases call with
  | registerPCR0 pcr0 buildHash description =>
    refine dif_neg ?_
    rintro ⟨hlen, hfree⟩
    have hnone : ownerOf keccak256 s ⟨pcr0, hlen⟩ = none := by
      rw [Option.eq_none_iff_forall_ne_some]
      exact fun o ho => hfree o ((h.index o _).mp ho)
    obtain ⟨s', events, hok⟩ := exists_registerPCR0_eq_ok hnone ctx buildHash description
    cases herror.symm.trans hok
  | deprecatePCR0 pcr0 =>
    refine if_neg ?_
    rintro ⟨hlen, hheld⟩
    obtain ⟨s', events, hok⟩ := exists_deprecatePCR0_eq_ok ((h.index _ _).mpr hheld)
    cases herror.symm.trans hok

include hkeccak h in
theorem Represents.transact (tx : Context × Call) :
    Represents keccak256 (transact keccak256 s tx) (holdingStep H tx) := by
  obtain ⟨ctx, call⟩ := tx
  simp only [Contract.transact]
  cases hexec : call.exec keccak256 ctx s with
  | error e =>
    rw [h.holdingStep_of_error hexec]
    exact h
  | ok out =>
    obtain ⟨s', events⟩ := out
    cases call with
    | registerPCR0 pcr0 buildHash description =>
      obtain ⟨hlen, hnone, added, hadded, hactive, rfl⟩ := registerPCR0_eq_ok hexec
      rw [holdingStep_register (h.index.free hnone)]
      exact (h.autoDeprecate hkeccak).append hkeccak (Holding.held_release_self _) hactive hadded _
    | deprecatePCR0 pcr0 =>
      obtain ⟨hlen, howner, rfl⟩ := deprecatePCR0_eq_ok hexec
      have hheld := (h.index _ _).mp howner
      rw [holdingStep_deprecate hheld, deprecateFrom_eq_retire ((h.held _).trans hheld)]
      exact h.retire hkeccak hheld

/-! ### What a transaction leaves alone -/

theorem autoDeprecate_records : (autoDeprecate keccak256 ctx s).1.records =
    Function.update s.records ctx.sender (retire ctx.now (s.records ctx.sender)) := by
  cases hheld : heldBy (s.records ctx.sender) with
  | none => rw [autoDeprecate_of_not_held hheld, retire_of_not_held hheld, Function.update_eq_self]
  | some m => rw [autoDeprecate_of_held hheld]

include h

theorem Represents.transact_records (tx : Context × Call) :
    ∃ rs, (Contract.transact keccak256 s tx).records = Function.update s.records tx.1.sender rs ∧
      HistoryGrows (s.records tx.1.sender) rs := by
  obtain ⟨ctx, call⟩ := tx
  simp only [Contract.transact]
  cases hexec : call.exec keccak256 ctx s with
  | error e => exact ⟨_, (Function.update_eq_self _ _).symm, .refl _⟩
  | ok out =>
    obtain ⟨s', events⟩ := out
    have hretire := historyGrows_retire ctx.now_ne_zero (s.records ctx.sender)
    cases call with
    | registerPCR0 pcr0 buildHash description =>
      obtain ⟨_, -, added, -, -, rfl⟩ := registerPCR0_eq_ok hexec
      refine ⟨Contract.retire ctx.now (s.records ctx.sender) ++ [added], ?_,
        hretire.trans (historyGrows_append _ _)⟩
      simp only [autoDeprecate_records, Function.update_self, Function.update_idem]
    | deprecatePCR0 pcr0 =>
      obtain ⟨hlen, howner, rfl⟩ := deprecatePCR0_eq_ok hexec
      have hheld := (h.held _).trans ((h.index _ _).mp howner)
      exact ⟨_, rfl, by rwa [deprecateFrom_eq_retire hheld]⟩

theorem Represents.historyGrows_transact (tx : Context × Call)
    (o : Address) : HistoryGrows (s.records o) ((Contract.transact keccak256 s tx).records o) := by
  obtain ⟨rs, hrecords, hgrows⟩ := h.transact_records tx
  rw [hrecords]
  by_cases ho : o = tx.1.sender
  · subst ho
    rwa [Function.update_self]
  · rw [Function.update_of_ne ho]
    exact .refl _

theorem Represents.autoDeprecate_owner {hash : Bytes}
    (hhash : s.activePCR0OwnerByHash hash ≠ ctx.sender) :
    (Contract.autoDeprecate keccak256 ctx s).1.activePCR0OwnerByHash hash =
      s.activePCR0OwnerByHash hash := by
  cases hheld : heldBy (s.records ctx.sender) with
  | none => rw [autoDeprecate_of_not_held hheld]
  | some m =>
    have howner := (h.index _ _).mpr ((h.held _).symm.trans hheld)
    rw [autoDeprecate_of_held hheld]
    refine Function.update_of_ne ?_ ..
    rintro rfl
    exact hhash (ownerOf_eq_some_iff.mp howner).1

theorem Represents.transact_owner {tx : Context × Call}
    {hash : Bytes} (hsender : tx.1.sender ≠ o) (ho : o ≠ 0)
    (howner : s.activePCR0OwnerByHash hash = o) :
    (Contract.transact keccak256 s tx).activePCR0OwnerByHash hash = o := by
  obtain ⟨ctx, call⟩ := tx
  simp only [Contract.transact]
  cases hexec : call.exec keccak256 ctx s with
  | error e => exact howner
  | ok out =>
    obtain ⟨s', events⟩ := out
    cases call with
    | registerPCR0 pcr0 buildHash description =>
      obtain ⟨hlen, hnone, _, -, -, rfl⟩ := registerPCR0_eq_ok hexec
      -- the entry that is written was nobody's
      have hhash : hash ≠ keccak256 pcr0 := by
        rintro rfl
        exact ho (howner.symm.trans (ownerOf_eq_none_iff.mp hnone))
      simp only [Function.update_of_ne hhash]
      rw [h.autoDeprecate_owner (by rw [howner]; exact hsender.symm), howner]
    | deprecatePCR0 pcr0 =>
      obtain ⟨hlen, hheld, rfl⟩ := deprecatePCR0_eq_ok hexec
      have hhash : hash ≠ keccak256 pcr0 := by
        rintro rfl
        exact hsender ((ownerOf_eq_some_iff.mp hheld).1.symm.trans howner)
      simp only [Function.update_of_ne hhash, howner]

/-! ### Runs -/

include hkeccak

theorem Represents.run (txs : List (Context × Call)) :
    Represents keccak256 (run keccak256 s txs) (txs.foldl holdingStep H) := by
  induction txs generalizing s H with
  | nil => exact h
  | cons tx txs ih => exact ih (h.transact hkeccak tx)

theorem Represents.historyGrows_run (txs : List (Context × Call)) (o : Address) :
    HistoryGrows (s.records o) ((Contract.run keccak256 s txs).records o) := by
  induction txs generalizing s H with
  | nil => exact .refl _
  | cons tx txs ih => exact (h.historyGrows_transact tx o).trans (ih (h.transact hkeccak tx))

omit hkeccak h

theorem isPCR0Active_eq_iff :
    isPCR0Active keccak256 pcr0 s = .ok (true, o) ↔
      ∃ hlen : pcr0.length = 48, ownerOf keccak256 s ⟨pcr0, hlen⟩ = some o := by
  by_cases hlen : pcr0.length = 48
  · simp only [isPCR0Active, validPCR0, dif_pos hlen, ownerOf_eq_some_iff, exists_prop_of_true hlen,
      Except.ok.injEq, Prod.mk.injEq, decide_eq_true_eq]
    constructor
    · rintro ⟨hne, rfl⟩
      exact ⟨rfl, hne⟩
    · rintro ⟨rfl, hne⟩
      exact ⟨hne, rfl⟩
  · simp [isPCR0Active, validPCR0, hlen]

theorem getActivePCR0_ok_iff :
    (∃ r, getActivePCR0 o s = .ok r) ↔
      (activeFrom (s.records o) (s.records o).length).isSome = true := by
  rw [getActivePCR0]
  split
  · rename_i r hr
    simp [hr]
  · rename_i hr
    simp [hr]

end

/-- After any sequence of calls the mapping names as the owner of a measurement exactly the account
whose history has one active record of it, only last records are active, histories keep what they
have up to deprecating it once, accounts do not touch what is another's, and the two lookups agree
on who is active. -/
theorem measurement_registry_invariant {keccak256 : Bytes → Bytes}
    (hkeccak : Function.Injective keccak256) (txs : List (Context × Call)) :
    (∀ (m : Measurement) (o : Address),
      ((run keccak256 .empty txs).activePCR0OwnerByHash (keccak256 m.1) = o ∧ o ≠ 0) ↔
        activeCount m (getOwnerHistory o (run keccak256 .empty txs)) = 1) ∧
    (∀ (o : Address) (i : ℕ) (r : PCR0Record),
      (getOwnerHistory o (run keccak256 .empty txs))[i]? = some r → r.deprecatedAt = 0 →
        i + 1 = (getOwnerHistory o (run keccak256 .empty txs)).length) ∧
    (∀ (later : List (Context × Call)) (o : Address),
      HistoryGrows (getOwnerHistory o (run keccak256 .empty txs))
        (getOwnerHistory o (run keccak256 .empty (txs ++ later)))) ∧
    (∀ (tx : Context × Call) (o : Address), tx.1.sender ≠ o →
      getOwnerHistory o (run keccak256 .empty (txs ++ [tx])) =
        getOwnerHistory o (run keccak256 .empty txs) ∧
      (o ≠ 0 → ∀ hash, (run keccak256 .empty txs).activePCR0OwnerByHash hash = o →
        (run keccak256 .empty (txs ++ [tx])).activePCR0OwnerByHash hash = o)) ∧
    ∀ o : Address, (∃ r, getActivePCR0 o (run keccak256 .empty txs) = .ok r) ↔
      ∃ pcr0, isPCR0Active keccak256 pcr0 (run keccak256 .empty txs) = .ok (true, o) := by
  have hrun := (represents_empty keccak256).run hkeccak txs
  have happend : ∀ later, run keccak256 .empty (txs ++ later) =
      run keccak256 (run keccak256 .empty txs) later := fun later => List.foldl_append
  simp only [happend]
  generalize run keccak256 .empty txs = s at hrun
  refine ⟨fun m o => ?_, fun o i r hr hactive => (hrun.last o).last_of_active hr hactive,
    fun later o => hrun.historyGrows_run hkeccak later o, fun tx o hsender => ⟨?_, ?_⟩, fun o => ?_⟩
  · rw [← ownerOf_eq_some_iff, hrun.index o m, ← hrun.held o]
    exact (activeCount_eq_one_iff (hrun.last o)).symm
  · obtain ⟨rs, hrecords, -⟩ := hrun.transact_records tx
    show (transact keccak256 s tx).records o = s.records o
    rw [hrecords, Function.update_of_ne hsender.symm]
  · exact fun ho hash howner => hrun.transact_owner hsender ho howner
  · rw [getActivePCR0_ok_iff, activeFrom_isSome_iff (hrun.last o), hrun.held o]
    constructor
    · rintro ⟨m, hm⟩
      exact ⟨m.1, isPCR0Active_eq_iff.mpr ⟨m.2, (hrun.index o m).mpr hm⟩⟩
    · rintro ⟨pcr0, hactive⟩
      obtain ⟨hlen, howner⟩ := isPCR0Active_eq_iff.mp hactive
      exact ⟨_, (hrun.index o _).mp howner⟩

namespace Rotation

def build1 : Measurement := ⟨List.replicate 48 0x11, List.length_replicate⟩

def build2 : Measurement := ⟨List.replicate 48 0x22, List.length_replicate⟩

def buildHashes : List (Bytes × Bytes) :=
  [(build1.1, Text.beBytes 32 0xa27528c0b62b0fa65831b8d854a01d9d87c96fd28acb728a985cebee68330d03),
    (build2.1, Text.beBytes 32 0xc8dc24d164b107c1ab123df2f70913e9f9f17077fb860e7e13f250a90ed40a1b)]

def keccak256 : Bytes → Bytes := Signer.Sample.digests buildHashes

def firstOwner : Context := ⟨0xa11ce, 1700000000, by decide, by decide, by decide⟩

def secondOwner : Context := ⟨0xb0b, 1700000300, by decide, by decide, by decide⟩

def calls : List (Context × Call) :=
  [(firstOwner, .registerPCR0 build1.1 (List.replicate 32 0) []),
    (firstOwner, .registerPCR0 build2.1 (List.replicate 32 0) []),
    (secondOwner, .registerPCR0 build1.1 (List.replicate 32 0) [])]

end Rotation

open Rotation in
/-- The measurement that was left is the second owner's, in both lookups. -/
theorem measurement_registry_invariant_rotation :
    isPCR0Active keccak256 build1.1 (run keccak256 .empty calls) =
        .ok (true, secondOwner.sender) ∧
      (∃ r, getActivePCR0 secondOwner.sender (run keccak256 .empty calls) = .ok r) ∧
      activeCount build1 (getOwnerHistory secondOwner.sender (run keccak256 .empty calls)) = 1 ∧
      activeCount build1 (getOwnerHistory firstOwner.sender (run keccak256 .empty calls)) ≠ 1 := by
  have hkeccak : Function.Injective keccak256 :=
    Signer.Sample.digests_injective (by decide +kernel) (by decide +kernel)
  have hactive : isPCR0Active keccak256 build1.1 (run keccak256 .empty calls) =
      .ok (true, secondOwner.sender) := by decide +kernel
  have howner : (run keccak256 .empty calls).activePCR0OwnerByHash (keccak256 build1.1) =
      secondOwner.sender := by decide +kernel
  obtain ⟨hcount, -, -, -, hlookups⟩ := measurement_registry_invariant hkeccak calls
  refine ⟨hactive, (hlookups _).mpr ⟨_, hactive⟩,
    (hcount _ _).mp ⟨howner, secondOwner.sender_ne_zero⟩, fun hfirst => ?_⟩
  have hother := ((hcount _ _).mpr hfirst).1
  rw [howner] at hother
  exact absurd hother (by decide)

end Signer.Contract
