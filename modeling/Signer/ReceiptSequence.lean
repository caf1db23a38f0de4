import Signer.Sample

/-!
# Receipt numbers under concurrency

Calls into the receipt store run concurrently. Issuing a receipt and making a heartbeat take the key
lock first and the counter lock later; installing a key takes the key lock once. A schedule says
which call takes its next section.
-/

namespace Signer

inductive ReceiptCall where
  | issue (pre : ReceiptPre) (resp : SignResponse)
  | heartbeat (identity : ResolvedIdentity) (clientNonce : String) (registryVersion : UInt64)
  | installKey (pk : Bytes)

inductive CallProgress where
  | started
  | keyed (pk : Bytes) (entryHash : String)
  | finished

inductive ReceiptOutput where
  | receipt (r : DecisionReceipt)
  | heartbeat (hb : ReceiptHeartbeat)

structure ReceiptSystem where
  store : ReceiptStore := {}
  progress : ℕ → CallProgress := fun _ => .started

namespace ReceiptSystem

variable (env : Env) (signer : ReceiptSigner) (calls : ℕ → ReceiptCall)

def advance (sys : ReceiptSystem) (i : ℕ) (point : CallProgress) : ReceiptSystem :=
  { sys with progress := fun j => if j = i then point else sys.progress j }

def keySection (i : ℕ) (sys : ReceiptSystem) : ReceiptSystem :=
  match calls i with
  | .issue pre _ => sys.advance i ((sys.store.issueKey pre).elim .finished fun pk => .keyed pk "")
  | .heartbeat identity _ _ =>
    sys.advance i (((sys.store.heartbeatKey env identity).toOption).elim .finished fun keyed =>
      .keyed keyed.1 keyed.2)
  | .installKey pk => { sys with store := sys.store.installKey pk }.advance i .finished

def counterSection (pk : Bytes) (entryHash : String) (i : ℕ) (sys : ReceiptSystem) :
    Option ReceiptOutput × ReceiptSystem :=
  match calls i with
  | .issue pre resp =>
    let issued := SeqTable.issue signer pk (pre.draft env resp) sys.store.seq
    (issued.1.map .receipt,
      { sys with store := { sys.store with seq := issued.2 } }.advance i .finished)
  | .heartbeat identity clientNonce registryVersion =>
    ((SeqTable.heartbeat env signer pk entryHash identity clientNonce registryVersion
      sys.store.seq).toOption.map .heartbeat, sys.advance i .finished)
  | .installKey _ => (none, sys)

def step (i : ℕ) (sys : ReceiptSystem) : Option ReceiptOutput × ReceiptSystem :=
  match sys.progress i with
  | .started => (none, sys.keySection env calls i)
  | .keyed pk entryHash => sys.counterSection env signer calls pk entryHash i
  | .finished => (none, sys)

end ReceiptSystem

abbrev SectionStep := Run.Step ℕ ReceiptSystem (Option ReceiptOutput)

def sectionSteps (env : Env) (signer : ReceiptSigner) (calls : ℕ → ReceiptCall)
    (schedule : List ℕ) : List SectionStep :=
  Run.steps (ReceiptSystem.step env signer calls) {} schedule

def ReceiptOutput.receiptFor (customer : String) : ReceiptOutput → Option DecisionReceipt
  | .receipt r => if r.customerId = customer then some r else none
  | .heartbeat _ => none

def receiptsFor (customer : String) (steps : List SectionStep) : List DecisionReceipt :=
  steps.filterMap fun step => step.output.bind (ReceiptOutput.receiptFor customer)

def ReceiptSystem.counter (sys : ReceiptSystem) (customer : String) : UInt64 :=
  sys.store.seq.next customer

/-! ### What a section does to the counters -/

namespace SeqTable

variable {seq : SeqTable} {customer other : String} {n : UInt64}

@[simp]
theorem next_insert_self : SeqTable.next (seq.insert customer n) customer = n := by
  simp [next]

theorem next_insert_of_ne (h : other ≠ customer) :
    SeqTable.next (seq.insert customer n) other = seq.next other := by
  simp [next, AList.lookup_insert_ne h]

theorem next_insert_zero (h : customer ∉ seq) :
    SeqTable.next (seq.insert customer 0) other = seq.next other := by
  by_cases hother : other = customer
  · subst hother
    simp [next, AList.lookup_eq_none.mpr h]
  · exact next_insert_of_ne hother

variable {signer : ReceiptSigner} {pk : Bytes} {draft r : DecisionReceipt} {seq' : SeqTable}

theorem next_ensured :
    SeqTable.next (if customer ∈ seq then seq else seq.insert customer 0) other =
      seq.next other := by
  split
  · rfl
  · rename_i h
    exact next_insert_zero h

theorem issue_eq_some (h : SeqTable.issue signer pk draft seq = (some r, seq')) :
    r.customerId = draft.customerId ∧ r.seq = (seq.next draft.customerId).toNat.repr ∧
      seq'.next draft.customerId = seq.next draft.customerId + 1 ∧
      ∀ other, other ≠ draft.customerId → seq'.next other = seq.next other := by
  unfold issue at h
  dsimp only at h
  split at h
  · simp at h
  · obtain ⟨hr, rfl⟩ := Prod.mk.inj h
    cases hr
    refine ⟨rfl, rfl, next_insert_self, fun other hother => ?_⟩
    rw [next_insert_of_ne hother, next_ensured]

theorem issue_eq_none (h : SeqTable.issue signer pk draft seq = (none, seq')) (other : String) :
    seq'.next other = seq.next other := by
  unfold issue at h
  dsimp only at h
  split at h
  · obtain ⟨-, rfl⟩ := Prod.mk.inj h
    exact next_ensured
  · simp at h

theorem heartbeat_eq_ok {env : Env} {identity : ResolvedIdentity} {entryHash clientNonce : String}
    {version : UInt64} {hb : ReceiptHeartbeat}
    (h : SeqTable.heartbeat env signer pk entryHash identity clientNonce version seq = .ok hb) :
    hb.seqNext = (seq.next hb.customerId).toNat.repr := by
  obtain ⟨sig, rfl⟩ := heartbeat_ok h
  rfl

end SeqTable

namespace ReceiptSystem

variable {env : Env} {signer : ReceiptSigner} {calls : ℕ → ReceiptCall} {i : ℕ}
  {sys sys' : ReceiptSystem} {customer : String}

theorem counter_keySection :
    (sys.keySection env calls i).counter customer = sys.counter customer := by
  unfold keySection
  split
  · rfl
  · rfl
  · simp only [counter, advance, ReceiptStore.installKey]
    split <;> rfl

theorem step_counter (customer : String) {output : Option ReceiptOutput}
    (h : step env signer calls i sys = (output, sys')) :
    (∃ r, output.bind (ReceiptOutput.receiptFor customer) = some r ∧
        r.seq = (sys.counter customer).toNat.repr ∧
        sys'.counter customer = sys.counter customer + 1) ∨
      output.bind (ReceiptOutput.receiptFor customer) = none ∧
        sys'.counter customer = sys.counter customer := by
  unfold step at h
  split at h
  · cases h
    exact .inr ⟨rfl, counter_keySection⟩
  · rename_i pk entryHash _
    unfold counterSection at h
    split at h
    · rename_i pre resp _
      rcases hissue : SeqTable.issue signer pk (pre.draft env resp) sys.store.seq with ⟨_ | r, seq⟩
      · rw [hissue] at h
        cases h
        exact .inr ⟨rfl, SeqTable.issue_eq_none hissue customer⟩
      · rw [hissue] at h
        cases h
        obtain ⟨hcustomer, hseq, hcounter, hothers⟩ := SeqTable.issue_eq_some hissue
        rw [← hcustomer] at hseq hcounter hothers
        by_cases hr : r.customerId = customer
        · subst hr
          exact .inl ⟨r, by simp [ReceiptOutput.receiptFor], hseq, hcounter⟩
        · exact .inr ⟨by simp [ReceiptOutput.receiptFor, hr], hothers customer (Ne.symm hr)⟩
    · cases h
      refine .inr ⟨?_, rfl⟩
      cases (SeqTable.heartbeat env signer pk entryHash _ _ _ sys.store.seq).toOption <;> rfl
    · cases h
      exact .inr ⟨rfl, rfl⟩
  · cases h
    exact .inr ⟨rfl, rfl⟩

theorem step_heartbeat {hb : ReceiptHeartbeat}
    (h : step env signer calls i sys = (some (.heartbeat hb), sys')) :
    hb.seqNext = (sys.counter hb.customerId).toNat.repr := by
  unfold step at h
  split at h
  · simp at h
  · rename_i pk entryHash _
    unfold counterSection at h
    split at h
    · obtain ⟨hout, -⟩ := Prod.mk.inj h
      obtain ⟨r, -, hr⟩ := Option.map_eq_some_iff.mp hout
      cases hr
    · rename_i identity clientNonce version _
      obtain ⟨hout, -⟩ := Prod.mk.inj h
      obtain ⟨hb', hok, hhb⟩ := Option.map_eq_some_iff.mp hout
      obtain rfl := ReceiptOutput.heartbeat.inj hhb
      cases hheartbeat : SeqTable.heartbeat env signer pk entryHash identity clientNonce version
          sys.store.seq with
      | error e => simp [hheartbeat, Except.toOption] at hok
      | ok hb =>
        rw [hheartbeat] at hok
        cases hok
        exact SeqTable.heartbeat_eq_ok hheartbeat
    · simp at h
  · simp at h

end ReceiptSystem

/-! ### Whole schedules -/

section

variable {env : Env} {signer : ReceiptSigner} {calls : ℕ → ReceiptCall} {customer : String}

theorem seq_receiptsFor_steps {sys : ReceiptSystem} {k : ℕ} (schedule : List ℕ)
    (hk : sys.counter customer = UInt64.ofNat k) :
    (receiptsFor customer (Run.steps (ReceiptSystem.step env signer calls) sys schedule)).map
        DecisionReceipt.seq =
      (List.range' k (receiptsFor customer
        (Run.steps (ReceiptSystem.step env signer calls) sys schedule)).length).map
        fun j => (UInt64.ofNat j).toNat.repr := by
  induction schedule generalizing sys k with
  | nil => rfl
  | cons i schedule ih =>
    rcases hstep : ReceiptSystem.step env signer calls i sys with ⟨output, sys'⟩
    simp only [Run.steps, receiptsFor, List.filterMap_cons, hstep]
    -- The section issues the customer's next receipt, or leaves the counter where it was.
    rcases ReceiptSystem.step_counter customer hstep with ⟨r, hr, hseq, hnext⟩ | ⟨hnone, hnext⟩
    · simp only [hr, List.map_cons, List.length_cons, List.range'_succ, hseq, hk]
      exact congrArg (List.cons _) (ih (hnext.trans (hk ▸ (UInt64.ofNat_add k 1).symm)))
    · simp only [hnone]
      exact ih (hnext.trans hk)

theorem counter_before_of_steps {sys : ReceiptSystem} {k : ℕ} {schedule : List ℕ}
    {before after : List SectionStep} {step : SectionStep}
    (hk : sys.counter customer = UInt64.ofNat k)
    (hsplit : Run.steps (ReceiptSystem.step env signer calls) sys schedule =
      before ++ step :: after) :
    step.before.counter customer = UInt64.ofNat (k + (receiptsFor customer before).length) := by
  refine (Run.invariant_history (H := fun before s => s.counter customer =
    UInt64.ofNat (k + (receiptsFor customer before).length)) hk ?_ hsplit).1
  intro before step hmem hbefore
  rw [receiptsFor, List.filterMap_append, List.filterMap_cons, List.filterMap_nil]
  rcases ReceiptSystem.step_counter customer (Run.mem_steps hmem).2 with
    ⟨r, hr, -, hnext⟩ | ⟨hnone, hnext⟩
  · rw [hnext, hbefore]
    simp only [hr, List.length_append, List.length_singleton, ← Nat.add_assoc]
    exact (UInt64.ofNat_add _ 1).symm
  · simp only [hnone, List.append_nil]
    exact hnext.trans hbefore

theorem toNat_ofNat_of_lt {n : ℕ} (h : n < 2 ^ 64) : (UInt64.ofNat n).toNat = n := by
  rw [UInt64.toNat_ofNat']
  exact Nat.mod_eq_of_lt h

/-- Under every schedule of issues, heartbeats and key installations, and however signing
fails, the receipts issued for a customer carry the numbers 0, 1, 2, … in the order of
their counter sections; no other section moves the customer's counter; and a heartbeat of
the customer carries the number of receipts issued before it. The counter is taken not to
wrap. -/
theorem receipt_sequence_gap_free (customer : String) (schedule : List ℕ)
    (hwrap : (receiptsFor customer (sectionSteps env signer calls schedule)).length < 2 ^ 64) :
    (receiptsFor customer (sectionSteps env signer calls schedule)).map DecisionReceipt.seq =
        (List.range (receiptsFor customer (sectionSteps env signer calls schedule)).length).map
          Nat.repr ∧
      (∀ step ∈ sectionSteps env signer calls schedule,
        step.output.bind (ReceiptOutput.receiptFor customer) = none →
        step.after.counter customer = step.before.counter customer) ∧
      ∀ before step after hb, sectionSteps env signer calls schedule = before ++ step :: after →
        step.output = some (.heartbeat hb) → hb.customerId = customer →
        hb.seqNext = (receiptsFor customer before).length.repr := by
  have hstart : (ReceiptSystem.counter {} customer) = UInt64.ofNat 0 := rfl
  refine ⟨?_, ?_, ?_⟩
  · rw [sectionSteps, seq_receiptsFor_steps schedule hstart, List.range_eq_range']
    refine List.map_congr_left fun j hj => ?_
    rw [toNat_ofNat_of_lt]
    have hj' := List.mem_range'_1.mp hj
    exact lt_of_lt_of_le hj'.2 (by rw [Nat.zero_add]; exact hwrap.le)
  · intro step hmem hnone
    rcases ReceiptSystem.step_counter customer (Run.mem_steps hmem).2 with
      ⟨r, hr, -⟩ | ⟨-, hsame⟩
    · rw [hnone] at hr
      cases hr
    · exact hsame
  · intro before step after hb hsplit hout hcustomer
    have hmem : step ∈ sectionSteps env signer calls schedule := by
      rw [hsplit]
      simp
    have hmachine := (Run.mem_steps hmem).2
    rw [hout] at hmachine
    have hlt : (receiptsFor customer before).length < 2 ^ 64 := by
      rw [hsplit, receiptsFor, List.filterMap_append, List.length_append] at hwrap
      exact lt_of_le_of_lt (Nat.le_add_right _ _) hwrap
    rw [ReceiptSystem.step_heartbeat hmachine, hcustomer,
      counter_before_of_steps hstart hsplit, Nat.zero_add, toNat_ofNat_of_lt hlt]

end

namespace Sample

def receiptCalls : ℕ → ReceiptCall
  | 0 => .installKey (List.replicate 32 0x11)
  | _ => .issue (ReceiptPre.capture (env bareBlob) (identity ["binance"] .active) limitOrder)
      (.err .sizeOverCap)

def readySigner : ReceiptSigner where
  receipt _ _ := some .blank
  heartbeat _ _ := some .blank

end Sample

open Sample in
/-- Two issues whose sections cross are numbered in the order of their counter sections. -/
theorem receipt_sequence_gap_free_crossed :
    (receiptsFor customer (sectionSteps (env bareBlob) readySigner receiptCalls
      [0, 1, 2, 2, 1])).map
      DecisionReceipt.seq = ["0", "1"] := by
  have hlen : (receiptsFor customer (sectionSteps (env bareBlob) readySigner receiptCalls
      [0, 1, 2, 2, 1])).length = 2 := by decide +kernel
  have hseq := (receipt_sequence_gap_free customer [0, 1, 2, 2, 1] (by rw [hlen]; decide)).1
  rw [hseq, hlen]
  rfl

end Signer
