import Signer.DecimalOrder

/-!
# Decimals in machine words

The arithmetic of caps runs on vectors of `u8` digits and on a `u32` accumulator. Here it is written
once more with those types: a result that does not fit, an index out of range and a failed assertion
end the computation. None of this happens, since every operand has at most 64 digits.
-/

namespace Signer

open Text Digits

variable {acc b : List ℕ} {bound i carry : ℕ} {α β : Type}

/-- A refused text, or a panic. -/
inductive DecimalFault where
  | invalid
  | panic
  deriving DecidableEq

namespace DecimalWords

/-! ### The functions of the source -/

def word (width n : ℕ) : Except DecimalFault ℕ :=
  if n < 2 ^ width then .ok n else .error .panic

def sub (a b : ℕ) : Except DecimalFault ℕ := if b ≤ a then .ok (a - b) else .error .panic

def cellAt (acc : List ℕ) (i : ℕ) : Except DecimalFault ℕ :=
  match acc[i]? with
  | some cell => .ok cell
  | none => .error .panic

/-- `decimal_digits`: the digits and the scale. -/
def decimalDigits (s : String) : Except DecimalFault (List ℕ × ℕ) :=
  if isDecimal s then do
    let digits ← (intPart s ++ fracPart s).mapM fun c => sub c.toNat '0'.toNat
    pure (digits.dropWhile (· = 0), (fracPart s).length)
  else .error .invalid

/-- The inner loop of `mul_digits`. -/
def addProducts (da : ℕ) : List ℕ → ℕ → List ℕ → Except DecimalFault (List ℕ)
  | [], _, acc => pure acc
  | db :: b, i, acc => do
    let product ← word 32 (da * db)
    let old ← cellAt acc i
    let cell ← word 32 (old + product)
    addProducts da b (i + 1) (acc.set i cell)

/-- The outer loop of `mul_digits`. -/
def accumulate (b : List ℕ) : List ℕ → ℕ → List ℕ → Except DecimalFault (List ℕ)
  | [], _, acc => pure acc
  | da :: a, i, acc => do
    let next ← addProducts da b i acc
    accumulate b a (i + 1) next

/-- The carry loop of `mul_digits`. -/
def carryCells : ℕ → List ℕ → Except DecimalFault (List ℕ × ℕ)
  | carry, [] => pure ([], carry)
  | carry, cell :: cells => do
    let v ← word 32 (cell + carry)
    let rest ← carryCells (v / 10) cells
    pure (v % 10 :: rest.1, rest.2)

/-- `mul_digits`. The assertion on the carry is the one of a debug build, and the casts to `u8`
keep the low byte. -/
def mulDigits (a b : List ℕ) : Except DecimalFault (List ℕ) :=
  if a = [] ∨ b = [] then pure []
  else do
    let acc ← accumulate b.reverse a.reverse 0 (List.replicate (a.length + b.length) 0)
    let cells ← carryCells 0 acc
    if cells.2 = 0 then pure ((cells.1.reverse.map (· % 2 ^ 8)).dropWhile (· = 0))
    else .error .panic

/-- The digit loop of `add_digits`, which runs a number of times and reads zeros past the end. -/
def addCells : ℕ → ℕ → List ℕ → List ℕ → Except DecimalFault (List ℕ)
  | 0, carry, _, _ => pure (if 0 < carry then [carry] else [])
  | n + 1, carry, xs, ys => do
    let pair ← word 8 (xs.headD 0 + ys.headD 0)
    let s ← word 8 (pair + carry)
    let rest ← addCells n (s / 10) xs.tail ys.tail
    pure (s % 10 :: rest)

def addDigits (a : List ℕ) (aScale : ℕ) (b : List ℕ) (bScale : ℕ) :
    Except DecimalFault (List ℕ × ℕ) := do
  let scale := max aScale bScale
  let x := shiftDigits a (scale - aScale)
  let y := shiftDigits b (scale - bScale)
  let out ← addCells (max x.length y.length) 0 x.reverse y.reverse
  pure (out.reverse.dropWhile (· = 0), scale)

def cmpScaled (l : List ℕ) (lScale : ℕ) (r : List ℕ) (rScale : ℕ) : Ordering :=
  let left := if lScale < rScale then shiftDigits l (rScale - lScale) else l
  let right := if rScale < lScale then shiftDigits r (lScale - rScale) else r
  (compare left.length right.length).then (compare left right)

def cmpPositiveDecimals (a b : String) : Except DecimalFault Ordering := do
  let x ← decimalDigits a
  let y ← decimalDigits b
  pure (cmpScaled x.1 x.2 y.1 y.2)

def notionalExceeds (qty price maxNotional : String) : Except DecimalFault Bool := do
  let q ← decimalDigits qty
  let p ← decimalDigits price
  let c ← decimalDigits maxNotional
  let product ← mulDigits q.1 p.1
  pure (cmpScaled product (q.2 + p.2) c.1 c.2 = .gt)

/-- The loop body of `sum_exceeds`. -/
def addValue (acc : List ℕ × ℕ) (v : String) : Except DecimalFault (List ℕ × ℕ) := do
  let d ← decimalDigits v
  addDigits acc.1 acc.2 d.1 d.2

def sumExceeds (values : List String) (cap : String) : Except DecimalFault Bool := do
  let c ← decimalDigits cap
  let total ← values.foldlM addValue ([], 0)
  pure (cmpScaled total.1 total.2 c.1 c.2 = .gt)

/-- The loop body of `notional_sum_exceeds`. -/
def addNotional (acc : List ℕ × ℕ) (pair : String × String) :
    Except DecimalFault (List ℕ × ℕ) := do
  let q ← decimalDigits pair.1
  let p ← decimalDigits pair.2
  let product ← mulDigits q.1 p.1
  addDigits acc.1 acc.2 product (q.2 + p.2)

def notionalSumExceeds (pairs : List (String × String)) (maxNotional : String) :
    Except DecimalFault Bool := do
  let c ← decimalDigits maxNotional
  let total ← pairs.foldlM addNotional ([], 0)
  pure (cmpScaled total.1 total.2 c.1 c.2 = .gt)

/-! ### Words do not overflow -/

theorem word_of_lt {width n : ℕ} (h : n < 2 ^ width) : word width n = .ok n := if_pos h

theorem le_of_mem_modify_add {x : ℕ} (hacc : ∀ c ∈ acc, c ≤ bound) :
    ∀ c ∈ acc.modify i (· + x), c ≤ bound + x := by
  intro c hc
  obtain ⟨j, hj, rfl⟩ := List.getElem_of_mem hc
  have hold := hacc _ (List.getElem_mem (by simpa using hj))
  rw [List.getElem_modify]
  split <;> omega

theorem addProducts_eq {da : ℕ} (hda : da < 10) (hb : ∀ d ∈ b, d < 10)
    (hlen : i + b.length ≤ acc.length) (hacc : ∀ c ∈ acc, c ≤ bound)
    (hbound : bound + 81 * b.length < 2 ^ 32) :
    addProducts da b i acc = .ok (Signer.addProducts da b i acc) ∧
      ∀ c ∈ Signer.addProducts da b i acc, c ≤ bound + 81 * b.length := by
  induction b generalizing i acc bound with
  | nil => exact ⟨rfl, by simpa [Signer.addProducts] using hacc⟩
  | cons db b ih =>
    obtain ⟨hdb, hb⟩ := List.forall_mem_cons.mp hb
    rw [List.length_cons] at hlen hbound ⊢
    have hproduct : da * db ≤ 81 := Nat.mul_le_mul (Nat.le_of_lt_succ hda) (Nat.le_of_lt_succ hdb)
    have hi : i < acc.length := by omega
    have hold : acc[i] ≤ bound := hacc _ (List.getElem_mem hi)
    have hstep : addProducts da (db :: b) i acc =
        addProducts da b (i + 1) (acc.modify i (· + da * db)) := by
      rw [addProducts, word_of_lt (by omega), List.modify_eq_set, List.getElem?_eq_getElem hi]
      simp only [cellAt, List.getElem?_eq_getElem hi, bind, Except.bind]
      rw [word_of_lt (by omega)]
      rfl
    have hcells : ∀ c ∈ acc.modify i (· + da * db), c ≤ bound + 81 := by
      intro c hc
      have hle := le_of_mem_modify_add hacc c hc
      omega
    obtain ⟨hrest, hle⟩ := ih hb (i := i + 1) (by rw [List.length_modify]; omega) hcells
      (by omega)
    rw [hstep, hrest]
    refine ⟨rfl, fun c hc => ?_⟩
    have hc := hle c hc
    omega

theorem accumulate_eq {a : List ℕ} (ha : ∀ d ∈ a, d < 10) (hb : ∀ d ∈ b, d < 10)
    (hlen : i + a.length + b.length ≤ acc.length) (hacc : ∀ c ∈ acc, c ≤ bound)
    (hbound : bound + 81 * b.length * a.length < 2 ^ 32) :
    accumulate b a i acc = .ok (Signer.accumulate b a i acc) ∧
      ∀ c ∈ Signer.accumulate b a i acc, c ≤ bound + 81 * b.length * a.length := by
  induction a generalizing i acc bound with
  | nil => exact ⟨rfl, by simpa [Signer.accumulate] using hacc⟩
  | cons da a ih =>
    obtain ⟨hda, ha⟩ := List.forall_mem_cons.mp ha
    rw [List.length_cons, Nat.mul_succ] at hbound
    rw [List.length_cons] at hlen
    obtain ⟨hrow, hcells⟩ := addProducts_eq hda hb (i := i) (by omega) hacc (by omega)
    have hwidth := (addProducts_spec da b i acc (by omega)).1
    obtain ⟨hrest, hle⟩ := ih ha (i := i + 1) (by omega) hcells (by omega)
    refine ⟨?_, fun c hc => ?_⟩
    · rw [accumulate, hrow]
      exact hrest
    · have hc := hle c hc
      rw [List.length_cons, Nat.mul_succ]
      omega

theorem carryCells_eq {cells : List ℕ} (hcells : ∀ c ∈ cells, c ≤ bound) (hcarry : carry ≤ bound)
    (hbound : 2 * bound < 2 ^ 32) :
    carryCells carry cells = .ok (Signer.carryCells carry cells) := by
  induction cells generalizing carry with
  | nil => rfl
  | cons cell cells ih =>
    obtain ⟨hcell, hcells⟩ := List.forall_mem_cons.mp hcells
    have hnext : (cell + carry) / 10 ≤ bound := by omega
    rw [carryCells, word_of_lt (by omega)]
    simp only [bind, Except.bind, ih hcells hnext]
    rfl

theorem mulDigits_eq {a : List ℕ} (ha : Normal 10 a) (hb : Normal 10 b) (halen : a.length ≤ 64)
    (hblen : b.length ≤ 64) : mulDigits a b = .ok (Signer.mulDigits a b) := by
  rw [mulDigits, Signer.mulDigits]
  split
  · rfl
  · set start := List.replicate (a.length + b.length) 0 with hstart
    have hdigits : ∀ {ds : List ℕ}, Normal 10 ds → ∀ d ∈ ds.reverse, d < 10 :=
      fun hds d hd => hds.digits_lt d (List.mem_reverse.mp hd)
    have hzeros : ∀ c ∈ start, c ≤ 0 := fun c hc => (List.eq_of_mem_replicate hc).le
    have hcount : 81 * b.length * a.length ≤ 81 * 64 * 64 := by gcongr
    obtain ⟨hacc, hcells⟩ := accumulate_eq (hdigits ha) (hdigits hb) (i := 0)
      (by simp [hstart]) hzeros (by simp only [List.length_reverse]; omega)
    have hsmall : ∀ c ∈ Signer.accumulate b.reverse a.reverse 0 start, c ≤ 81 * 64 * 64 :=
      fun c hc => (hcells c hc).trans (by simpa using hcount)
    have hcarried := carryCells_eq hsmall (Nat.zero_le _) (by norm_num)
    have hleft := carryCells_accumulate ha hb
    rw [← hstart] at hleft
    have hlow : ∀ d ∈ (Signer.carryCells 0 (Signer.accumulate b.reverse a.reverse 0 start)).1.reverse,
        d % 2 ^ 8 = d := by
      intro d hd
      have hlt := (carryCells_spec _ _).2.1 d (List.mem_reverse.mp hd)
      exact Nat.mod_eq_of_lt (by omega)
    simp only [bind, Except.bind, hacc, hcarried, hleft, if_pos, List.map_congr_left hlow,
      List.map_id']
    rfl

theorem addCells_succ {n : ℕ} {xs ys rest : List ℕ} (hsum : xs.headD 0 + ys.headD 0 + carry < 2 ^ 8)
    (hrest : addCells n ((xs.headD 0 + ys.headD 0 + carry) / 10) xs.tail ys.tail = .ok rest) :
    addCells (n + 1) carry xs ys = .ok ((xs.headD 0 + ys.headD 0 + carry) % 10 :: rest) := by
  rw [addCells, word_of_lt (by omega)]
  simp only [bind, Except.bind, word_of_lt hsum, hrest]
  rfl

theorem addCells_eq {xs ys : List ℕ} (hcarry : carry ≤ 1) (hxs : ∀ d ∈ xs, d < 10)
    (hys : ∀ d ∈ ys, d < 10) :
    addCells (max xs.length ys.length) carry xs ys = .ok (Signer.addCells carry xs ys) := by
  fun_induction Signer.addCells carry xs ys with
  | case1 carry hpos => simp [addCells, hpos, pure, Except.pure]
  | case2 carry hpos => simp [addCells, hpos, pure, Except.pure]
  | case3 carry x xs ih =>
    obtain ⟨hx, hxs⟩ := List.forall_mem_cons.mp hxs
    have hrest := ih (by omega) hxs hys
    rw [List.length_nil, Nat.max_zero] at hrest ⊢
    exact addCells_succ (by simp; omega) (by simpa using hrest)
  | case4 carry y ys ih =>
    obtain ⟨hy, hys⟩ := List.forall_mem_cons.mp hys
    have hrest := ih (by omega) hxs hys
    rw [List.length_nil, Nat.zero_max] at hrest ⊢
    rw [List.length_cons, addCells_succ (by simp; omega) (by simpa using hrest)]
    simp
  | case5 carry x xs y ys ih =>
    obtain ⟨hx, hxs⟩ := List.forall_mem_cons.mp hxs
    obtain ⟨hy, hys⟩ := List.forall_mem_cons.mp hys
    have hrest := ih (by omega) hxs hys
    rw [List.length_cons, List.length_cons, Nat.add_max_add_right]
    exact addCells_succ (by simp; omega) hrest

theorem addDigits_eq (x y : Decimal) :
    addDigits x.digits x.scale y.digits y.scale = .ok ((x.add y).digits, (x.add y).scale) := by
  have hdigits : ∀ {ds : List ℕ}, Normal 10 ds → ∀ n, ∀ d ∈ (shiftDigits ds n).reverse, d < 10 :=
    fun hds n d hd => (normal_shiftDigits hds n).digits_lt d (List.mem_reverse.mp hd)
  have hcells := addCells_eq (Nat.zero_le 1)
    (hdigits x.normal (max x.scale y.scale - x.scale))
    (hdigits y.normal (max x.scale y.scale - y.scale))
  rw [List.length_reverse, List.length_reverse] at hcells
  simp only [addDigits, hcells, bind, Except.bind]
  rfl

/-! ### Words compute what digits compute -/

def ofOption {α : Type} : Option α → Except DecimalFault α
  | some a => .ok a
  | none => .error .invalid

def raw (d : Decimal) : List ℕ × ℕ := (d.digits, d.scale)

theorem ofOption_bind (o : Option α) (f : α → Option β) :
    ofOption (o >>= f) = ofOption o >>= fun a => ofOption (f a) := by
  cases o <;> rfl

theorem ofOption_map_bind {γ : Type} (o : Option α) (g : α → β) (f : β → Except DecimalFault γ) :
    (ofOption (o.map g) >>= f) = ofOption o >>= fun a => f (g a) := by
  cases o <;> rfl

theorem ofOption_bind_congr {o : Option α} {f g : α → Except DecimalFault β}
    (h : ∀ a, o = some a → f a = g a) : (ofOption o >>= f) = ofOption o >>= g := by
  cases o with
  | none => rfl
  | some a => exact h a rfl

theorem mapM_sub_digitOf {cs : List Char} (h : ∀ c ∈ cs, isAsciiDigit c = true) :
    (cs.mapM fun c => sub c.toNat '0'.toNat) = .ok (cs.map digitOf) := by
  induction cs with
  | nil => rfl
  | cons c cs ih =>
    obtain ⟨hc, hcs⟩ := List.forall_mem_cons.mp h
    have hle : '0'.toNat ≤ c.toNat := by
      simp only [isAsciiDigit, decide_eq_true_eq] at hc
      exact hc.1
    rw [List.mapM_cons, ih hcs, sub, if_pos hle]
    rfl

theorem decimalDigits_eq (s : String) :
    decimalDigits s = ofOption ((Signer.decimalDigits s).map raw) := by
  by_cases hs : isDecimal s = true
  · rw [decimalDigits, if_pos hs, mapM_sub_digitOf fun c => isAsciiDigit_of_mem_parts hs,
      Signer.decimalDigits, dif_pos hs]
    rfl
  · rw [decimalDigits, if_neg hs, Signer.decimalDigits, dif_neg hs]
    rfl

theorem length_digits_le {s : String} {d : Decimal} (h : Signer.decimalDigits s = some d) :
    d.digits.length ≤ 64 := by
  have hs := isDecimal_of_decimalDigits h
  simp only [Signer.decimalDigits, dif_pos hs, Option.some.injEq] at h
  obtain rfl := h
  simp only [isDecimal, maxNotionalOperandLen, decide_eq_true_eq, List.all_eq_true,
    Bool.decide_or, Bool.or_eq_true] at hs
  obtain ⟨-, hsize, hchars, -, -⟩ := hs
  have hascii : ∀ c ∈ s.toList, isAscii c = true := by
    intro c hc
    rcases hchars c hc with hdigit | rfl
    · simp only [isAsciiDigit, decide_eq_true_eq] at hdigit
      have hle : c.toNat ≤ '9'.toNat := hdigit.2
      exact decide_eq_true (Nat.lt_of_le_of_lt hle (by decide))
    · decide
  have hparts : (intPart s).length + (fracPart s).length ≤ s.length := by
    have hsplit := congrArg List.length
      (List.takeWhile_append_dropWhile (p := (· ≠ '.')) (l := s.toList))
    rw [List.length_append, String.length_toList] at hsplit
    simp only [intPart, fracPart, List.length_drop]
    omega
  calc (((intPart s ++ fracPart s).map digitOf).dropWhile (· = 0)).length
      ≤ ((intPart s ++ fracPart s).map digitOf).length := (List.dropWhile_sublist _).length_le
    _ = (intPart s).length + (fracPart s).length := by simp
    _ ≤ s.utf8ByteSize := by rwa [utf8ByteSize_of_isAscii hascii]
    _ ≤ 64 := hsize

theorem cmpPositiveDecimals_eq_ofOption (a b : String) :
    cmpPositiveDecimals a b = ofOption (Signer.cmpPositiveDecimals a b) := by
  simp only [cmpPositiveDecimals, Signer.cmpPositiveDecimals, decimalDigits_eq, ofOption_map_bind,
    ofOption_bind]
  rfl

theorem notionalExceeds_eq_ofOption (qty price cap : String) :
    notionalExceeds qty price cap = ofOption (Signer.notionalExceeds qty price cap) := by
  simp only [notionalExceeds, Signer.notionalExceeds, decimalDigits_eq, ofOption_map_bind,
    ofOption_bind]
  refine ofOption_bind_congr fun q hq => ofOption_bind_congr fun p hp =>
    ofOption_bind_congr fun c _ => ?_
  have hproduct := mulDigits_eq q.normal p.normal (length_digits_le hq) (length_digits_le hp)
  simp only [raw, hproduct]
  rfl

theorem foldlM_eq_ofOption {step : Decimal → α → Option Decimal}
    {wordStep : List ℕ × ℕ → α → Except DecimalFault (List ℕ × ℕ)}
    (hstep : ∀ acc item, wordStep (raw acc) item = ofOption ((step acc item).map raw))
    (items : List α) (acc : Decimal) :
    items.foldlM wordStep (raw acc) = ofOption ((items.foldlM step acc).map raw) := by
  induction items generalizing acc with
  | nil => rfl
  | cons item items ih =>
    rw [List.foldlM_cons, List.foldlM_cons, hstep]
    cases step acc item with
    | none => rfl
    | some next => exact ih next

theorem addValue_raw (acc : Decimal) (v : String) :
    addValue (raw acc) v = ofOption (((Signer.decimalDigits v).map acc.add).map raw) := by
  rw [addValue, decimalDigits_eq, ofOption_map_bind]
  cases Signer.decimalDigits v with
  | none => rfl
  | some d => exact addDigits_eq acc d

theorem sumExceeds_eq_ofOption (values : List String) (cap : String) :
    sumExceeds values cap = ofOption (Signer.sumExceeds values cap) := by
  have hloop := foldlM_eq_ofOption addValue_raw values Decimal.zero
  rw [sumExceeds, Signer.sumExceeds, decimalDigits_eq, ofOption_map_bind, ofOption_bind]
  refine ofOption_bind_congr fun c _ => ?_
  rw [show (([], 0) : List ℕ × ℕ) = raw Decimal.zero from rfl, hloop, ofOption_map_bind,
    ofOption_bind]
  rfl

theorem addNotional_raw (acc : Decimal) (pair : String × String) :
    addNotional (raw acc) pair = ofOption ((do
      let q ← Signer.decimalDigits pair.1
      let p ← Signer.decimalDigits pair.2
      pure (acc.add (q.mul p))).map raw) := by
  rw [addNotional, decimalDigits_eq, decimalDigits_eq, ofOption_map_bind]
  cases hq : Signer.decimalDigits pair.1 with
  | none => rfl
  | some q =>
    cases hp : Signer.decimalDigits pair.2 with
    | none => rfl
    | some p =>
      have hproduct := mulDigits_eq q.normal p.normal (length_digits_le hq) (length_digits_le hp)
      have hadd := addDigits_eq acc (q.mul p)
      simp only [ofOption, raw, bind, Except.bind, Option.map_some, hproduct]
      exact hadd

theorem notionalSumExceeds_eq_ofOption (pairs : List (String × String)) (cap : String) :
    notionalSumExceeds pairs cap = ofOption (Signer.notionalSumExceeds pairs cap) := by
  have hloop := foldlM_eq_ofOption addNotional_raw pairs Decimal.zero
  rw [notionalSumExceeds, Signer.notionalSumExceeds, decimalDigits_eq, ofOption_map_bind,
    ofOption_bind]
  refine ofOption_bind_congr fun c _ => ?_
  rw [show (([], 0) : List ℕ × ℕ) = raw Decimal.zero from rfl, hloop, ofOption_map_bind,
    ofOption_bind]
  rfl

end DecimalWords

/-! ### What the operands have to be -/

/-- The texts that `isDecimal` accepts. -/
structure DecimalText (s : String) : Prop where
  size : 1 ≤ s.utf8ByteSize ∧ s.utf8ByteSize ≤ 64
  chars : ∀ c ∈ s.toList, isAsciiDigit c = true ∨ c = '.'
  dots : s.toList.count '.' ≤ 1
  digit : ∃ c ∈ s.toList, isAsciiDigit c = true

theorem isDecimal_iff {s : String} : isDecimal s = true ↔ DecimalText s := by
  have hsize : 1 ≤ s.utf8ByteSize ↔ s ≠ "" := by
    rw [Nat.one_le_iff_ne_zero, Ne, String.utf8ByteSize_eq_zero_iff]
  simp only [isDecimal, maxNotionalOperandLen, decide_eq_true_eq, List.all_eq_true,
    List.any_eq_true, Bool.decide_or, Bool.or_eq_true]
  constructor
  · rintro ⟨hne, hle, hchars, hdots, hdigit⟩
    exact ⟨⟨hsize.mpr hne, hle⟩, hchars, hdots, hdigit⟩
  · rintro ⟨⟨hpos, hle⟩, hchars, hdots, hdigit⟩
    exact ⟨hsize.mp hpos, hle, hchars, hdots, hdigit⟩

def Decides {α : Type} (operands : List String) (answer : α) (result : Except DecimalFault α) :
    Prop :=
  ((∀ s ∈ operands, DecimalText s) → result = .ok answer) ∧
    (¬(∀ s ∈ operands, DecimalText s) → result = .error .invalid)

section

open DecimalWords

theorem decides_ofOption {operands : List String} {answer : α} {o : Option α}
    (hanswer : (∀ s ∈ operands, isDecimal s = true) → o = some answer)
    (hoperands : ∀ a, o = some a → ∀ s ∈ operands, isDecimal s = true) :
    Decides operands answer (ofOption o) := by
  simp only [Decides, ← isDecimal_iff]
  refine ⟨fun h => by rw [hanswer h]; rfl, fun h => ?_⟩
  cases o with
  | none => rfl
  | some a => exact absurd (hoperands a rfl) h

theorem cmpPositiveDecimals_decides (a b : String) :
    Decides [a, b] (compare (decimalValue a) (decimalValue b))
      (DecimalWords.cmpPositiveDecimals a b) := by
  rw [cmpPositiveDecimals_eq_ofOption]
  refine decides_ofOption (fun h => ?_) fun o ho => ?_
  · obtain ⟨x, hx, hxvalue⟩ := exists_decimalDigits (h a (by simp))
    obtain ⟨y, hy, hyvalue⟩ := exists_decimalDigits (h b (by simp))
    simp [Signer.cmpPositiveDecimals, hx, hy, cmpScaled_eq_compare, hxvalue, hyvalue]
  · obtain ⟨ha, hb, -⟩ := cmpPositiveDecimals_eq ho
    simp [ha, hb]

theorem notionalExceeds_decides (qty price cap : String) :
    Decides [qty, price, cap]
      (decide (decimalValue cap < decimalValue qty * decimalValue price))
      (DecimalWords.notionalExceeds qty price cap) := by
  rw [notionalExceeds_eq_ofOption]
  refine decides_ofOption (fun h => ?_) fun o ho => ?_
  · obtain ⟨q, hq, hqvalue⟩ := exists_decimalDigits (h qty (by simp))
    obtain ⟨p, hp, hpvalue⟩ := exists_decimalDigits (h price (by simp))
    obtain ⟨c, hc, hcvalue⟩ := exists_decimalDigits (h cap (by simp))
    simp [Signer.notionalExceeds, hq, hp, hc, cmpScaled_eq_compare, hqvalue, hpvalue, hcvalue,
      compare_gt_iff_gt]
  · simp only [Signer.notionalExceeds, do_eq_some] at ho
    obtain ⟨q, hq, p, hp, c, hc, -⟩ := ho
    simp [isDecimal_of_decimalDigits hq, isDecimal_of_decimalDigits hp,
      isDecimal_of_decimalDigits hc]

theorem forall_mem_of_foldlM {step : β → α → Option β} {read : α → Prop}
    (hstep : ∀ acc item next, step acc item = some next → read item) {items : List α}
    {acc total : β} (h : items.foldlM step acc = some total) : ∀ item ∈ items, read item := by
  induction items generalizing acc with
  | nil => exact fun _ hitem => absurd hitem List.not_mem_nil
  | cons item items ih =>
    rw [List.foldlM_cons] at h
    obtain ⟨next, hnext, hrest⟩ := Option.bind_eq_some_iff.mp h
    exact List.forall_mem_cons.mpr ⟨hstep _ _ _ hnext, ih hrest⟩

theorem sumExceeds_decides (values : List String) (cap : String) :
    Decides (cap :: values) (decide (decimalValue cap < (values.map decimalValue).sum))
      (DecimalWords.sumExceeds values cap) := by
  rw [sumExceeds_eq_ofOption]
  refine decides_ofOption (fun h => ?_) fun o ho => ?_
  · obtain ⟨hcap, hvalues⟩ := List.forall_mem_cons.mp h
    exact sumExceeds_eq hvalues hcap
  · simp only [Signer.sumExceeds, do_eq_some] at ho
    obtain ⟨c, hc, total, htotal, -⟩ := ho
    refine List.forall_mem_cons.mpr ⟨isDecimal_of_decimalDigits hc, ?_⟩
    refine forall_mem_of_foldlM (fun acc v next hnext => ?_) htotal
    obtain ⟨d, hd, -⟩ := Option.map_eq_some_iff.mp hnext
    exact isDecimal_of_decimalDigits hd

theorem notionalSumExceeds_decides (pairs : List (String × String)) (cap : String) :
    Decides (cap :: pairs.flatMap fun pair => [pair.1, pair.2])
      (decide (decimalValue cap <
        (pairs.map fun pair => decimalValue pair.1 * decimalValue pair.2).sum))
      (DecimalWords.notionalSumExceeds pairs cap) := by
  have hflat : (∀ s ∈ pairs.flatMap fun pair => [pair.1, pair.2], isDecimal s = true) ↔
      ∀ pair ∈ pairs, isDecimal pair.1 = true ∧ isDecimal pair.2 = true := by
    constructor
    · intro h pair hpair
      exact ⟨h _ (List.mem_flatMap.mpr ⟨pair, hpair, by simp⟩),
        h _ (List.mem_flatMap.mpr ⟨pair, hpair, by simp⟩)⟩
    · intro h s hs
      obtain ⟨pair, hpair, hs⟩ := List.mem_flatMap.mp hs
      rcases List.mem_pair.mp hs with rfl | rfl
      · exact (h pair hpair).1
      · exact (h pair hpair).2
  rw [notionalSumExceeds_eq_ofOption]
  refine decides_ofOption (fun h => ?_) fun o ho => ?_
  · obtain ⟨hcap, hpairs⟩ := List.forall_mem_cons.mp h
    exact notionalSumExceeds_eq (hflat.mp hpairs) hcap
  · simp only [Signer.notionalSumExceeds, do_eq_some] at ho
    obtain ⟨c, hc, total, htotal, -⟩ := ho
    refine List.forall_mem_cons.mpr ⟨isDecimal_of_decimalDigits hc, hflat.mpr ?_⟩
    refine forall_mem_of_foldlM (fun acc pair next hnext => ?_) htotal
    obtain ⟨q, hq, hnext⟩ := Option.bind_eq_some_iff.mp hnext
    obtain ⟨p, hp, -⟩ := Option.bind_eq_some_iff.mp hnext
    exact ⟨isDecimal_of_decimalDigits hq, isDecimal_of_decimalDigits hp⟩

/-- The arithmetic of caps is exact. A text parses if and only if it is a decimal, and then to the
number it denotes. On decimals the comparisons are those of the rationals, for sums of any length;
they fail where an operand is no decimal, and in no other way: no word overflows. -/
theorem cap_arithmetic_exact :
    (∀ s, (∃ d, DecimalWords.decimalDigits s = .ok d) ↔ DecimalText s) ∧
      (∀ s d, DecimalWords.decimalDigits s = .ok d →
        (value 10 d.1 : ℚ) / 10 ^ d.2 = decimalValue s) ∧
      (∀ s, ¬DecimalText s → DecimalWords.decimalDigits s = .error .invalid) ∧
      (∀ a b, Decides [a, b] (compare (decimalValue a) (decimalValue b))
        (DecimalWords.cmpPositiveDecimals a b)) ∧
      (∀ qty price cap, Decides [qty, price, cap]
        (decide (decimalValue cap < decimalValue qty * decimalValue price))
        (DecimalWords.notionalExceeds qty price cap)) ∧
      (∀ values cap, Decides (cap :: values)
        (decide (decimalValue cap < (values.map decimalValue).sum))
        (DecimalWords.sumExceeds values cap)) ∧
      ∀ pairs : List (String × String), ∀ cap,
        Decides (cap :: pairs.flatMap fun pair => [pair.1, pair.2])
          (decide (decimalValue cap <
            (pairs.map fun pair => decimalValue pair.1 * decimalValue pair.2).sum))
          (DecimalWords.notionalSumExceeds pairs cap) := by
  refine ⟨fun s => ?_, fun s d hd => ?_, fun s hs => ?_, cmpPositiveDecimals_decides,
    notionalExceeds_decides, sumExceeds_decides, notionalSumExceeds_decides⟩
  · rw [← isDecimal_iff, DecimalWords.decimalDigits_eq]
    constructor
    · rintro ⟨d, hd⟩
      cases hparsed : Signer.decimalDigits s with
      | none => simp [hparsed, ofOption] at hd
      | some parsed => exact isDecimal_of_decimalDigits hparsed
    · intro hs
      obtain ⟨d, hd, -⟩ := exists_decimalDigits hs
      exact ⟨raw d, by rw [hd]; rfl⟩
  · rw [DecimalWords.decimalDigits_eq] at hd
    cases hparsed : Signer.decimalDigits s with
    | none => simp [hparsed, ofOption] at hd
    | some parsed =>
      rw [hparsed] at hd
      obtain rfl := Except.ok.inj hd
      exact decimalDigits_toRat hparsed
  · rw [← isDecimal_iff] at hs
    exact if_neg hs

/-- A tenth and two tenths are not more than three tenths, and a dot alone is no decimal. -/
theorem cap_arithmetic_exact_tenths :
    DecimalWords.sumExceeds [".1", "0.20"] "00.3" = .ok false ∧
      DecimalWords.sumExceeds [".1", "."] "00.3" = .error .invalid := by
  obtain ⟨-, -, -, -, -, hsum, -⟩ := cap_arithmetic_exact
  have hvalues : decide (decimalValue "00.3" < ([".1", "0.20"].map decimalValue).sum) = false := by
    decide +kernel
  constructor
  · rw [← hvalues]
    refine (hsum [".1", "0.20"] "00.3").1 fun s hs => isDecimal_iff.mp ?_
    revert s
    decide
  · refine (hsum [".1", "."] "00.3").2 fun h => ?_
    have hdot := isDecimal_iff.mpr (h "." (by simp))
    exact absurd hdot (by decide)

end

end Signer
