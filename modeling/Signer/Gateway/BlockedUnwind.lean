import Signer.Gateway.Bundles

/-!
# An unwind behind the intent gate

A customer whose policy asks for a signed intent cannot be unwound by the job, which holds no key of
the agent: every cancel is refused with status 400. The job says that it stops after the first
refusal. But it looks for the mark of a refusal between rounds only, so it asks again for every
order of a book; and the cancels of Binance are signed as reads, whose refusal has no mark.
-/

namespace Signer.Gateway

open Program

/-! ### The job and its cancels -/

inductive UnwindQuery where
  | job (q : JobQuery)
  | venue (q : VenueQuery)

@[reducible]
def UnwindQuery.Answer : UnwindQuery → Type
  | .job q => q.Answer
  | .venue q => q.Answer

abbrev UnwindEvent := Program.Event UnwindQuery UnwindQuery.Answer

def askVenue (q : VenueQuery) : Program UnwindQuery UnwindQuery.Answer q.Answer :=
  Program.query (UnwindQuery.venue q)

def answerJob (ops : GatewayOps) :
    (q : JobQuery) → Program UnwindQuery UnwindQuery.Answer q.Answer
  | .cancel venue orders => (ops.cancel venue orders).interp askVenue
  | q => Program.query (UnwindQuery.job q)

def unwound {α : Type} (ops : GatewayOps) (p : JobProgram α) :
    Program UnwindQuery UnwindQuery.Answer α :=
  p.interp (answerJob ops)

def signsCancel : UnwindQuery → Bool
  | .venue (.signOkxCancel ..) => true
  | .venue (.signAccountRead _ method ..) => method = "DELETE"
  | _ => false

def signAttempts (past : List UnwindEvent) : ℕ := past.countP fun event => signsCancel event.1

/-- The enclave refuses every cancel, as it does where the policy asks for an intent. -/
structure RefusesCancels (world : List UnwindEvent → (q : UnwindQuery) → q.Answer) : Prop where
  okx : ∀ past symbol orderId, world past (.venue (.signOkxCancel symbol orderId)) = .error 400
  binance : ∀ past venue path query,
    world past (.venue (.signAccountRead venue "DELETE" path query)) = .error 400

/-! ### The books a job takes up -/

structure Books where
  listed : Option (String × List OpenOrder) := none
  taken : List (String × List OpenOrder) := []

def Books.note (books : Books) : UnwindEvent → Books
  | ⟨.job (.listOpen venue), (.ok orders, _)⟩ =>
    { books with listed := if orders = [] then none else some (venue, orders) }
  | ⟨.job .stateOf, state⟩ =>
    { listed := none
      taken := if state = .active then books.taken else books.taken ++ books.listed.toList }
  | _ => { books with listed := none }

def booksOf (past : List UnwindEvent) : Books := past.foldl Books.note {}

theorem booksOf_append (past : List UnwindEvent) (event : UnwindEvent) :
    booksOf (past ++ [event]) = (booksOf past).note event := by
  rw [booksOf, List.foldl_append]
  rfl

def cancelsFor (book : String × List OpenOrder) : ℕ :=
  if book.1 = "okx" then book.2.length else (book.2.map (·.symbol)).toFinset.card

/-! ### Cancels that are refused -/

def okxRefused : String :=
  "sign okx cancel refused: HTTP " ++ toString 400 ++ refusalHint 400 .cancel

def binanceRefused : String :=
  "sign " ++ "DELETE" ++ " " ++ "/fapi/v1/allOpenOrders" ++ " refused: HTTP " ++ toString 400 ++
    refusalHint 400 .read

def okxRefusal (order : OpenOrder) : UnwindEvent :=
  ⟨.venue (.signOkxCancel order.symbol order.orderId), .error 400⟩

def binanceRefusal (symbol : String) : UnwindEvent :=
  ⟨.venue (.signAccountRead "binance" "DELETE" "/fapi/v1/allOpenOrders" ("symbol=" ++ symbol)),
    .error 400⟩

def refusedOn (venue : String) : String := if venue = "okx" then okxRefused else binanceRefused

def OfVenue (events : List UnwindEvent) : Prop := ∀ e ∈ events, ∃ q r, e = ⟨.venue q, r⟩

theorem booksOf_ofVenue {past events : List UnwindEvent} (hevents : OfVenue events)
    (hlisted : (booksOf past).listed = none) : booksOf (past ++ events) = booksOf past := by
  induction events using List.reverseRecOn with
  | nil => rw [List.append_nil]
  | append_singleton events event ih =>
    obtain ⟨q, r, rfl⟩ := hevents event (by simp)
    rw [← List.append_assoc, booksOf_append, ih fun e he => hevents e (by simp [he])]
    cases hbooks : booksOf past with
    | mk listed taken =>
      rw [hbooks] at hlisted
      exact congrArg (Books.mk · taken) (Eq.symm hlisted)

section

variable {ops : GatewayOps} {world : List UnwindEvent → (q : UnwindQuery) → q.Answer}
  (hworld : RefusesCancels world)

include hworld

theorem exec_cancelOkxOne (order : OpenOrder) (raw : List RawExchange) (past : List UnwindEvent) :
    ((ops.cancelOkxOne order raw).interp askVenue).exec world past =
      (past ++ [okxRefusal order], (.failed okxRefused, raw)) := by
  rw [GatewayOps.cancelOkxOne, cancelAttempts, GatewayOps.cancelOkxFrom, interp_bind,
    exec_bind, interp_query, askVenue, exec_query, hworld.okx]
  rfl

theorem exec_cancelOkx (orders : List OpenOrder) (raw : List RawExchange)
    (past : List UnwindEvent) :
    ((ops.cancelOkx orders raw).interp askVenue).exec world past =
      (past ++ orders.map okxRefusal, (orders.map fun _ => .failed okxRefused, raw)) := by
  induction orders generalizing past raw with
  | nil => simp [GatewayOps.cancelOkx]
  | cons order orders ih =>
    rw [GatewayOps.cancelOkx, interp_bind, exec_bind, exec_cancelOkxOne hworld]
    dsimp only
    rw [interp_bind, exec_bind, ih]
    simp

theorem exec_cancelBinanceSymbol (symbol : String) (raw : List RawExchange)
    (past : List UnwindEvent) :
    ((ops.cancelBinanceSymbol symbol raw).interp askVenue).exec world past =
      (past ++ [binanceRefusal symbol], (.failed binanceRefused, raw)) := by
  rw [GatewayOps.cancelBinanceSymbol, cancelAttempts, GatewayOps.cancelBinanceFrom,
    interp_bind, exec_bind, GatewayOps.signedRead, cancelAttempts,
    GatewayOps.signedReadFrom, interp_bind, exec_bind, interp_query,
    askVenue, exec_query, hworld.binance]
  rfl

theorem exec_cancelBinance (orders : List OpenOrder) (bySymbol : List (String × CancelOutcome))
    (raw : List RawExchange) (known : Finset String)
    (hknown : ∀ symbol, bySymbol.lookup symbol =
      if symbol ∈ known then some (.failed binanceRefused) else none)
    (past : List UnwindEvent) :
    ∃ (symbols : List String) (result : List (String × CancelOutcome)),
      ((ops.cancelBinance orders bySymbol raw).interp askVenue).exec world past =
        (past ++ symbols.map binanceRefusal, (result, raw)) ∧
      symbols.length = ((orders.map (·.symbol)).toFinset \ known).card ∧
      ∀ symbol, result.lookup symbol =
        if symbol ∈ known ∪ (orders.map (·.symbol)).toFinset then some (.failed binanceRefused)
        else none := by
  induction orders generalizing bySymbol known past with
  | nil => exact ⟨[], bySymbol, by simp [GatewayOps.cancelBinance], by simp, by simpa using hknown⟩
  | cons order orders ih =>
    by_cases hmem : order.symbol ∈ known
    · have hsome : (bySymbol.lookup order.symbol).isSome = true := by simp [hknown, hmem]
      obtain ⟨symbols, result, hexec, hlength, hresult⟩ := ih bySymbol known hknown past
      refine ⟨symbols, result, ?_, ?_, fun symbol => ?_⟩
      · rw [GatewayOps.cancelBinance, if_pos hsome, hexec]
      · rw [List.map_cons, List.toFinset_cons, Finset.insert_sdiff_of_mem _ hmem, hlength]
      · rw [hresult, List.map_cons, List.toFinset_cons, Finset.union_insert,
          Finset.insert_eq_self.mpr (Finset.mem_union_left _ hmem)]
    · have hnone : ¬ (bySymbol.lookup order.symbol).isSome = true := by simp [hknown, hmem]
      have hinsert : ∀ symbol, (insertEntry order.symbol (.failed binanceRefused)
          bySymbol).lookup symbol =
          if symbol ∈ insert order.symbol known then some (.failed binanceRefused) else none := by
        intro symbol
        rw [lookup_insertEntry, hknown]
        by_cases h : symbol = order.symbol <;> simp [h]
      obtain ⟨symbols, result, hexec, hlength, hresult⟩ := ih _ _ hinsert
        (past ++ [binanceRefusal order.symbol])
      refine ⟨order.symbol :: symbols, result, ?_, ?_, fun symbol => ?_⟩
      · rw [GatewayOps.cancelBinance, if_neg hnone, interp_bind, exec_bind,
          exec_cancelBinanceSymbol hworld]
        dsimp only
        rw [hexec]
        simp
      · -- the symbol is new, and what remains does not count it again
        have hset : (orders.map (·.symbol)).toFinset \ insert order.symbol known =
            (((order :: orders).map (·.symbol)).toFinset \ known).erase order.symbol := by
          ext symbol
          simp only [Finset.mem_sdiff, List.mem_toFinset, Finset.mem_insert, Finset.mem_erase,
            List.map_cons, List.mem_cons]
          tauto
        rw [List.length_cons, hlength, hset, Finset.card_erase_add_one]
        simp [hmem]
      · rw [hresult, List.map_cons, List.toFinset_cons, Finset.union_insert, Finset.insert_union]

theorem exec_cancel {venue : String} (hvenue : supported venue = true) (orders : List OpenOrder)
    (past : List UnwindEvent) :
    ∃ events, ((ops.cancel venue orders).interp askVenue).exec world past =
        (past ++ events, (orders.map fun _ => .failed (refusedOn venue), [])) ∧
      signAttempts events = cancelsFor (venue, orders) ∧ OfVenue events := by
  by_cases hokx : venue = "okx"
  · refine ⟨orders.map okxRefusal, ?_, ?_, ?_⟩
    · rw [GatewayOps.cancel, if_pos hokx, exec_cancelOkx hworld, refusedOn, if_pos hokx]
    · rw [signAttempts, cancelsFor, if_pos hokx, List.countP_map]
      exact List.countP_eq_length.mpr fun _ _ => rfl
    · intro e he
      obtain ⟨order, -, rfl⟩ := List.mem_map.mp he
      exact ⟨_, _, rfl⟩
  · have hbinance : venue = "binance" := by simpa [supported, hokx] using hvenue
    obtain ⟨symbols, result, hexec, hlength, hresult⟩ :=
      @exec_cancelBinance ops world hworld orders [] [] ∅ (by simp) past
    refine ⟨symbols.map binanceRefusal, ?_, ?_, ?_⟩
    · rw [GatewayOps.cancel, if_neg hokx, if_pos hbinance, interp_bind, exec_bind,
        hexec, refusedOn, if_neg hokx]
      dsimp only
      rw [interp_pure, exec_pure]
      refine congrArg (Prod.mk _) (congrArg (Prod.mk · _) (List.map_congr_left fun order ho => ?_))
      have hmem : order.symbol ∈ ∅ ∪ (orders.map (·.symbol)).toFinset := by
        simpa using ⟨order, ho, rfl⟩
      rw [hresult, if_pos hmem]
      rfl
    · rw [signAttempts, cancelsFor, if_neg hokx, List.countP_map, ← Finset.sdiff_empty
        (s := (orders.map (·.symbol)).toFinset), ← hlength]
      exact List.countP_eq_length.mpr fun _ _ => rfl
    · intro e he
      obtain ⟨order, -, rfl⟩ := List.mem_map.mp he
      exact ⟨_, _, rfl⟩

end

/-! ### What the job makes of it -/

theorem notMem_toList {c : Char} {l : List Char} (h : c ∉ l) : c ∉ (String.ofList l).toList := by
  rwa [String.toList_ofList]

theorem mark_infix_okxRefused : intentGateMark.toList <:+: okxRefused.toList := by
  have hhint : intentGateMark.toList <:+: String.toList
      " [af2-intent-gate] — most likely this tenant's policy requires a signed cancel intent " := by
    decide +kernel
  have hparts : ∀ a b c d e f : List Char, c <:+: a ++ b ++ (c ++ d ++ e ++ f) :=
    fun a b c d e f => ⟨a ++ b, d ++ e ++ f, by simp⟩
  unfold okxRefused
  simp only [refusalHint, String.toList_append, if_true]
  exact hhint.trans (hparts _ _ _ _ _ _)

theorem mark_not_infix_binanceRefused : ¬ intentGateMark.toList <:+: binanceRefused.toList := by
  have hdigit : '2' ∉ binanceRefused.toList := by
    simp only [binanceRefused, refusalHint, String.toList_append, List.mem_append, not_or, if_true]
    refine ⟨⟨⟨⟨⟨⟨?_, ?_⟩, ?_⟩, ?_⟩, ?_⟩, ?_⟩, ⟨?_, ?_⟩, ?_⟩
    all_goals exact notMem_toList (by decide)
  exact fun hwithin => hdigit (hwithin.subset (by decide +kernel))

theorem mark_infix_refusedOn {venue : String} (hvenue : supported venue = true) :
    intentGateMark.toList <:+: (refusedOn venue).toList ↔ venue = "okx" := by
  by_cases hokx : venue = "okx"
  · subst hokx
    exact iff_of_true mark_infix_okxRefused rfl
  · have hbinance : venue = "binance" := by simpa [supported, hokx] using hvenue
    subst hbinance
    exact iff_of_false mark_not_infix_binanceRefused hokx

theorem intentGated_noteOutcomes (u : Unwind) (venue : String) (orders : List OpenOrder)
    (e : String) :
    (u.noteOutcomes venue orders (orders.map fun _ => .failed e)).intentGated = true ↔
      u.intentGated = true ∨ orders ≠ [] ∧ intentGateMark.toList <:+: e.toList := by
  have hresults : (orders.zip (orders.map fun _ => CancelOutcome.failed e)).map (·.2) =
      orders.map fun _ => .failed e := List.map_snd_zip (by simp)
  rw [Unwind.noteOutcomes, hresults]
  clear hresults
  induction orders generalizing u with
  | nil => simp
  | cons order orders ih =>
    have hone : (Unwind.noteOutcome venue u (.failed e)).intentGated = true ↔
        u.intentGated = true ∨ intentGateMark.toList <:+: e.toList := by
      simp only [Unwind.noteOutcome, Bool.or_eq_true, decide_eq_true_eq]
      rfl
    rw [List.map_cons, List.foldl_cons]
    refine (ih _).trans ?_
    rw [hone]
    simp only [ne_eq, reduceCtorEq, not_false_eq_true, true_and]
    tauto

/-- Every listed book was answered with one refused attempt per cancel. -/
structure Blocked (u : Unwind) (past : List UnwindEvent) : Prop where
  listed : (booksOf past).listed = none
  attempts : signAttempts past = ((booksOf past).taken.map cancelsFor).sum
  books : ∀ book ∈ (booksOf past).taken, supported book.1 = true ∧ book.2 ≠ []
  gated : u.intentGated = true ↔ ∃ book ∈ (booksOf past).taken, book.1 = "okx"

theorem signAttempts_append (past events : List UnwindEvent) :
    signAttempts (past ++ events) = signAttempts past + signAttempts events :=
  List.countP_append

theorem Blocked.append {u later : Unwind} {past : List UnwindEvent} (h : Blocked u past)
    (event : UnwindEvent) (hnote : ∀ taken, Books.note ⟨none, taken⟩ event = ⟨none, taken⟩)
    (hsigns : signsCancel event.1 = false) (hgated : later.intentGated = u.intentGated) :
    Blocked later (past ++ [event]) := by
  have hbooks : booksOf (past ++ [event]) = booksOf past := by
    rw [booksOf_append]
    have hlisted := h.listed
    cases hpast : booksOf past with
    | mk listed taken =>
      rw [hpast] at hlisted
      obtain rfl : listed = none := hlisted
      exact hnote taken
  have hattempts : signAttempts (past ++ [event]) = signAttempts past := by
    simp [signAttempts, hsigns]
  exact ⟨hbooks ▸ h.listed, by rw [hattempts, hbooks, h.attempts], hbooks ▸ h.books,
    by rw [hgated, hbooks, h.gated]⟩

theorem booksOf_looked {past : List UnwindEvent} {venue : String} {orders : List OpenOrder}
    (hempty : orders ≠ []) (raw : List RawExchange) (state : TenantState) :
    booksOf (past ++ [⟨.job (.listOpen venue), (.ok orders, raw)⟩] ++ [⟨.job .stateOf, state⟩]) =
      ⟨none, if state = .active then (booksOf past).taken
        else (booksOf past).taken ++ [(venue, orders)]⟩ := by
  rw [booksOf_append, booksOf_append]
  simp [Books.note, hempty]

theorem Blocked.refused {u later : Unwind} {past now events : List UnwindEvent} {venue : String}
    {orders : List OpenOrder} (h : Blocked u past) (hvenue : supported venue = true)
    (hempty : orders ≠ []) (hbooks : booksOf now = ⟨none, (booksOf past).taken ++ [(venue, orders)]⟩)
    (hnow : signAttempts now = signAttempts past)
    (hevents : signAttempts events = cancelsFor (venue, orders)) (hof : OfVenue events)
    (hgated : later.intentGated = true ↔ u.intentGated = true ∨ venue = "okx") :
    Blocked later (now ++ events) := by
  have hsame : booksOf (now ++ events) = booksOf now := booksOf_ofVenue hof (by rw [hbooks])
  refine ⟨?_, ?_, ?_, ?_⟩
  · rw [hsame, hbooks]
  · rw [signAttempts_append, hnow, h.attempts, hevents, hsame, hbooks]
    simp
  · rw [hsame, hbooks]
    simp only [List.mem_append, List.mem_singleton]
    rintro book (hbook | rfl)
    · exact h.books book hbook
    · exact ⟨hvenue, hempty⟩
  · rw [hgated, h.gated, hsame, hbooks]
    simp [or_and_right, exists_or]

section

variable {ops : GatewayOps} {world : List UnwindEvent → (q : UnwindQuery) → q.Answer}

theorem exec_answerJob {q : JobQuery} (hq : ∀ venue orders, q ≠ .cancel venue orders)
    (past : List UnwindEvent) :
    (answerJob ops q).exec world past = (past ++ [⟨.job q, world past (.job q)⟩],
      world past (.job q)) := by
  cases q with
  | cancel venue orders => exact absurd rfl (hq venue orders)
  | _ => rfl

theorem exec_finish (customer : String) (venues : List String) (started : ℕ)
    (phase : ReconcilePhase) (u : Unwind) (past : List UnwindEvent) :
    ∃ (finished : ℕ) (state : TenantState) (bundle : IncidentBundle) (path : Option String),
      ((unwound ops (finish customer venues started phase u)).exec world past).1 =
        past ++ [⟨.job .nowUnix, finished⟩] ++ [⟨.job .stateOf, state⟩] ++
          [⟨.job (.writeBundle bundle), path⟩] ++
          [⟨.job (.updateReconcile (.markFinal (verdict venues phase u).1 finished u path
            (verdict venues phase u).2)), ()⟩] :=
  ⟨_, _, _, _, rfl⟩

variable (hworld : RefusesCancels world)

include hworld

theorem exec_unwindVenue_refused {venue : String} (hvenue : supported venue = true) (u : Unwind)
    {past : List UnwindEvent} {orders : List OpenOrder} {raw : List RawExchange}
    {state : TenantState} (hempty : orders ≠ [])
    (hlisted : world past (.job (.listOpen venue)) = (.ok orders, raw))
    (hstate : world (past ++ [⟨.job (.listOpen venue), (.ok orders, raw)⟩]) (.job .stateOf) = state)
    (hactive : state ≠ .active) (clean : Bool) :
    ∃ u' events, (unwound ops (unwindVenue venue u clean)).exec world past =
        (past ++ [⟨.job (.listOpen venue), (.ok orders, raw)⟩] ++ [⟨.job .stateOf, state⟩] ++ events,
          .complete u' false) ∧
      signAttempts events = cancelsFor (venue, orders) ∧ OfVenue events ∧
      (u'.intentGated = true ↔ u.intentGated = true ∨ venue = "okx") := by
  obtain ⟨events, hexec, hsigned, hof⟩ := @exec_cancel ops world hworld venue hvenue orders
    (past ++ [⟨.job (.listOpen venue), (.ok orders, raw)⟩] ++ [⟨.job .stateOf, state⟩])
  let listed := ({ u with raw := u.raw ++ raw } : Unwind).noteListed venue orders
  refine ⟨({ listed with raw := listed.raw ++ [] } : Unwind).noteOutcomes venue orders
    (orders.map fun _ => .failed (refusedOn venue)), events, ?_, hsigned, hof, ?_⟩
  · rw [unwound, unwindVenue, interp_bind, exec_bind, interp_query, exec_answerJob (by simp), hlisted]
    dsimp only
    rw [if_neg hempty, interp_bind, exec_bind, interp_query, exec_answerJob (by simp), hstate]
    dsimp only
    rw [if_neg hactive, interp_bind, exec_bind, interp_query, answerJob, hexec, interp_pure,
      exec_pure]
  · rw [intentGated_noteOutcomes, mark_infix_refusedOn hvenue, and_iff_right hempty]
    rfl

theorem unwindVenue_blocked {venue : String} (hvenue : supported venue = true) {u : Unwind}
    {past : List UnwindEvent} (h : Blocked u past) (clean : Bool) :
    let ended := (unwound ops (unwindVenue venue u clean)).exec world past
    Blocked ended.2.unwind ended.1 ∧
      (∀ u', ended.2 = .released u' → u'.intentGated = u.intentGated) ∧
      (venue ≠ "okx" → ended.2.unwind.intentGated = u.intentGated) := by
  intro ended
  have hended : ended = (unwound ops (unwindVenue venue u clean)).exec world past := rfl
  rcases hlisted : world past (.job (.listOpen venue)) with ⟨_ | orders, raw⟩
  · rw [unwound, unwindVenue, interp_bind, exec_bind, interp_query, exec_answerJob (by simp),
      hlisted] at hended
    rw [hended]
    exact ⟨h.append _ (fun _ => rfl) rfl rfl, by simp, fun _ => rfl⟩
  by_cases hempty : orders = []
  · rw [unwound, unwindVenue, interp_bind, exec_bind, interp_query, exec_answerJob (by simp),
      hlisted] at hended
    dsimp only at hended
    rw [if_pos hempty] at hended
    rw [hended]
    refine ⟨h.append _ (fun _ => ?_) rfl rfl, by simp, fun _ => rfl⟩
    simp [Books.note, hempty]
  generalize hstate : world (past ++ [⟨.job (.listOpen venue), (.ok orders, raw)⟩])
    (.job .stateOf) = state
  have hbooks := @booksOf_looked past venue orders hempty raw state
  have hattempts : signAttempts (past ++ [⟨.job (.listOpen venue), (.ok orders, raw)⟩] ++
      [⟨.job .stateOf, state⟩]) = signAttempts past := by
    simp [signAttempts, signsCancel]
  by_cases hactive : state = .active
  · rw [unwound, unwindVenue, interp_bind, exec_bind, interp_query, exec_answerJob (by simp),
      hlisted] at hended
    dsimp only at hended
    rw [if_neg hempty, interp_bind, exec_bind, interp_query, exec_answerJob (by simp),
      hstate] at hended
    dsimp only at hended
    rw [if_pos hactive, interp_pure, exec_pure] at hended
    rw [if_pos hactive] at hbooks
    rw [hended]
    refine ⟨⟨?_, ?_, ?_, ?_⟩, fun u' hu' => ?_, fun _ => rfl⟩
    · rw [hbooks]
    · rw [hbooks, hattempts, h.attempts]
    · rw [hbooks]
      exact h.books
    · rw [hbooks]
      exact h.gated
    · obtain rfl := RoundEnd.released.inj hu'
      rfl
  · rw [if_neg hactive] at hbooks
    obtain ⟨u', events, hexec, hsigned, hof, hgated⟩ :=
      @exec_unwindVenue_refused ops world hworld venue hvenue u past orders raw state hempty hlisted
        hstate hactive clean
    rw [hexec] at hended
    rw [hended]
    refine ⟨h.refused hvenue hempty hbooks hattempts hsigned hof hgated, by simp, fun hne => ?_⟩
    exact Bool.eq_iff_iff.mpr (hgated.trans (or_iff_left hne))

theorem unwindVenues_blocked {venues : List String} (hvenues : ∀ v ∈ venues, supported v = true)
    (hlast : "okx" ∉ venues.dropLast) {u : Unwind} {past : List UnwindEvent} (h : Blocked u past)
    (clean : Bool) :
    let ended := (unwound ops (unwindVenues venues u clean)).exec world past
    Blocked ended.2.unwind ended.1 ∧
      ∀ u', ended.2 = .released u' → u'.intentGated = u.intentGated := by
  induction venues generalizing u past clean with
  | nil => exact ⟨h, by simp [unwindVenues, unwound]⟩
  | cons venue venues ih =>
    obtain ⟨hvenue, hvenues⟩ := List.forall_mem_cons.mp hvenues
    intro ended
    have hended : ended = (unwound ops (unwindVenues (venue :: venues) u clean)).exec world past :=
      rfl
    rw [unwound, unwindVenues, interp_bind, exec_bind] at hended
    obtain ⟨hblocked, hreleased, hother⟩ :=
      @unwindVenue_blocked ops world hworld venue hvenue u past h clean
    rw [unwound] at hblocked hreleased hother
    generalize ((unwindVenue venue u clean).interp (answerJob ops)).exec world past = one at *
    obtain ⟨now, result⟩ := one
    cases result with
    | released u' =>
      rw [hended]
      exact ⟨hblocked, fun u'' hu'' => hreleased u'' hu''⟩
    | complete u' clean' =>
      cases venues with
      | nil =>
        rw [hended]
        exact ⟨hblocked, by simp [unwindVenues]⟩
      | cons next venues =>
        rw [List.dropLast_cons_of_ne_nil (List.cons_ne_nil _ _), List.mem_cons, not_or] at hlast
        obtain ⟨hround, hround'⟩ := ih hvenues hlast.2 hblocked clean'
        rw [hended]
        exact ⟨hround, fun u'' hu'' => (hround' u'' hu'').trans (hother (Ne.symm hlast.1))⟩

theorem unwindRounds_blocked {venues : List String} (hvenues : ∀ v ∈ venues, supported v = true)
    (hlast : "okx" ∉ venues.dropLast) (left : ℕ) {u : Unwind} {past : List UnwindEvent}
    (h : Blocked u past) (hgated : u.intentGated = false) :
    let ended := (unwound ops (unwindRounds venues left u)).exec world past
    Blocked ended.2.2 ended.1 ∧ (ended.2.2.intentGated = true → ended.2.1 = .failed) := by
  induction left generalizing u past with
  | zero => exact ⟨h, fun _ => rfl⟩
  | succ left ih =>
    intro ended
    have hended : ended = (unwound ops (unwindRounds venues (left + 1) u)).exec world past := rfl
    rw [unwound, unwindRounds, interp_bind, exec_bind, interp_query,
      exec_answerJob (by simp)] at hended
    dsimp only at hended
    generalize world past (.job .stateOf) = state at hended
    have hlooked : Blocked { u with rounds := u.rounds + 1 } (past ++ [⟨.job .stateOf, state⟩]) :=
      h.append _ (fun taken => by simp [Books.note]) rfl rfl
    by_cases hactive : state = .active
    · rw [if_pos hactive] at hended
      rw [hended]
      exact ⟨hlooked, fun hyes => absurd (hgated.symm.trans hyes) Bool.false_ne_true⟩
    · rw [if_neg hactive, interp_bind, exec_bind] at hended
      obtain ⟨hblocked, hreleased⟩ :=
        @unwindVenues_blocked ops world hworld venues hvenues hlast _ _ hlooked true
      rw [unwound] at hblocked hreleased
      generalize ((unwindVenues venues { u with rounds := u.rounds + 1 } true).interp
        (answerJob ops)).exec world (past ++ [⟨.job .stateOf, state⟩]) = round at *
      obtain ⟨now, result⟩ := round
      cases result with
      | released u' =>
        have hsame : u'.intentGated = false := (hreleased u' rfl).trans hgated
        rw [hended]
        exact ⟨hblocked, fun hyes => absurd (hsame.symm.trans hyes) Bool.false_ne_true⟩
      | complete u' clean =>
        dsimp only at hended
        rw [interp_bind, exec_bind, interp_query,
          exec_answerJob (by simp)] at hended
        have hmarked : Blocked u' (now ++ [⟨.job (.updateReconcile (.markRound u')), ()⟩]) :=
          hblocked.append _ (fun _ => rfl) rfl rfl
        -- what the job says of the round before it looks whether there is another one
        generalize now ++ [⟨.job (.updateReconcile (.markRound u')), _⟩] = marked at hended hmarked
        by_cases hgated' : u'.intentGated = true
        · rw [if_pos hgated'] at hended
          rw [hended]
          exact ⟨hmarked, fun _ => rfl⟩
        · have hno : u'.intentGated = false := Bool.eq_false_iff.mpr hgated'
          have hdone : Blocked u' marked ∧ (u'.intentGated = true → ReconcilePhase.done = .failed) :=
            ⟨hmarked, fun hyes => absurd hyes hgated'⟩
          rw [if_neg hgated'] at hended
          split_ifs at hended with hclean hnothing hsleep
          · rw [hended]
            exact hdone
          · rw [hended]
            exact hdone
          · rw [interp_bind, exec_bind, interp_query,
              exec_answerJob (by simp)] at hended
            rw [hended]
            exact ih (hmarked.append _ (fun _ => rfl) rfl rfl) hno
          · rw [hended]
            exact ih hmarked hno

omit hworld in
theorem exec_run (customer : String) (venues : List String) :
    ∃ (started finished : ℕ) (state : TenantState) (bundle : IncidentBundle) (path : Option String),
      let rounds := (unwound ops (unwindRounds (venues.filter supported) maxRounds
        { progress := startingProgress venues })).exec world ([⟨.job .nowUnix, started⟩] ++
          [⟨.job (.updateReconcile (.markRunning started (startingProgress venues))), ()⟩])
      ((unwound ops (run customer venues)).exec world []).1 =
        rounds.1 ++ [⟨.job .nowUnix, finished⟩] ++ [⟨.job .stateOf, state⟩] ++
          [⟨.job (.writeBundle bundle), path⟩] ++
          [⟨.job (.updateReconcile (.markFinal (verdict venues rounds.2.1 rounds.2.2).1 finished
            rounds.2.2 path (verdict venues rounds.2.1 rounds.2.2).2)), ()⟩] := by
  obtain ⟨finished, state, bundle, path, hfinish⟩ := @exec_finish ops world customer venues _ _ _ _
  refine ⟨world [] (.job .nowUnix), finished, state, bundle, path, Eq.trans ?_ hfinish⟩
  conv_lhs => rw [unwound, run, interp_bind, exec_bind, interp_query, exec_answerJob (by simp),
    interp_bind, exec_bind, interp_query, exec_answerJob (by simp), interp_bind, exec_bind]
  rfl

omit hworld in
theorem blocked_start (started : ℕ) (venues : List String) :
    Blocked { progress := startingProgress venues } ([⟨.job .nowUnix, started⟩] ++
      [⟨.job (.updateReconcile (.markRunning started (startingProgress venues))), ()⟩]) :=
  ⟨rfl, rfl, by simp [booksOf, Books.note], by simp [booksOf, Books.note]⟩

theorem run_blocked (customer : String) {venues : List String}
    (hlast : "okx" ∉ (venues.filter supported).dropLast) :
    let past := ((unwound ops (run customer venues)).exec world []).1
    ∃ (phase : ReconcilePhase) (u : Unwind) (finished : ℕ) (path : Option String),
      Blocked u past ∧ (u.intentGated = true → phase = .failed) ∧
      past.getLast? = some ⟨.job (.updateReconcile (.markFinal (verdict venues phase u).1 finished u
        path (verdict venues phase u).2)), ()⟩ := by
  intro past
  obtain ⟨started, finished, state, bundle, path, hpast⟩ := @exec_run ops world customer venues
  replace hpast : past = _ := hpast
  obtain ⟨hrounds, hphase⟩ := @unwindRounds_blocked ops world hworld (venues.filter supported)
    (fun v hv => (List.mem_filter.mp hv).2) hlast maxRounds _ _ (blocked_start started venues) rfl
  refine ⟨_, _, finished, path, ?_, hphase, ?_⟩
  · rw [hpast]
    exact (((hrounds.append _ (fun _ => rfl) rfl rfl).append _
      (fun taken => by simp [Books.note]) rfl rfl).append _ (fun _ => rfl) rfl rfl).append _
      (fun _ => rfl) rfl rfl
  · rw [hpast]
    exact List.getLast?_concat

/-! ### A book that stays -/

section

variable {venue : String} (hvenue : supported venue = true) {orders : List OpenOrder}
  (hempty : orders ≠ [])
  (hbook : ∀ past, ∃ raw, world past (.job (.listOpen venue)) = (.ok orders, raw))
  (hstopped : ∀ past, world past (.job .stateOf) ≠ .active)

include hvenue hempty hbook hstopped

-- The rounds end with the first one on OKX, whose refusal has the mark, and with the last one
-- elsewhere.
theorem unwindRounds_steady (left : ℕ) {u : Unwind} {past : List UnwindEvent}
    (hlisted : (booksOf past).listed = none) (hgated : u.intentGated = false) :
    booksOf ((unwound ops (unwindRounds [venue] left u)).exec world past).1 =
      ⟨none, (booksOf past).taken ++
        List.replicate (if venue = "okx" then min left 1 else left) (venue, orders)⟩ := by
  induction left generalizing u past with
  | zero =>
    have hbooks : booksOf past = ⟨none, (booksOf past).taken⟩ := by rw [← hlisted]
    simpa [unwindRounds, unwound] using hbooks
  | succ left ih =>
    have hlooked : booksOf (past ++ [⟨.job .stateOf, world past (.job .stateOf)⟩]) =
        ⟨none, (booksOf past).taken⟩ := by
      simp [booksOf_append, Books.note, hlisted]
    rw [unwound, unwindRounds, interp_bind, exec_bind, interp_query, exec_answerJob (by simp)]
    dsimp only
    rw [if_neg (hstopped past), interp_bind, exec_bind, unwindVenues, interp_bind, exec_bind]
    generalize past ++ [⟨.job .stateOf, world past (.job .stateOf)⟩] = start at hlooked ⊢
    obtain ⟨raw, hlist⟩ := hbook start
    have hactive := hstopped (start ++ [⟨.job (.listOpen venue), (.ok orders, raw)⟩])
    obtain ⟨u', events, hexec, -, hof, hgated'⟩ := @exec_unwindVenue_refused ops world hworld venue
      hvenue { u with rounds := u.rounds + 1 } start orders raw _ hempty hlist rfl hactive true
    generalize world (start ++ [⟨.job (.listOpen venue), (.ok orders, raw)⟩]) (.job .stateOf) =
      state at hactive hexec
    rw [unwound] at hexec
    rw [hexec]
    dsimp only
    rw [unwindVenues, interp_pure, exec_pure]
    dsimp only
    rw [interp_bind, exec_bind, interp_query, exec_answerJob (by simp)]
    dsimp only
    have hmarked : booksOf (start ++ [⟨.job (.listOpen venue), (.ok orders, raw)⟩] ++
        [⟨.job .stateOf, state⟩] ++ events ++ [⟨.job (.updateReconcile (.markRound u')), ()⟩]) =
        ⟨none, (booksOf past).taken ++ [(venue, orders)]⟩ := by
      rw [booksOf_append, booksOf_ofVenue hof (by rw [booksOf_looked hempty]),
        booksOf_looked hempty, if_neg hactive, hlooked]
      rfl
    generalize start ++ _ ++ _ ++ events ++ [⟨.job (.updateReconcile (.markRound u')), _⟩] = marked
      at hmarked ⊢
    by_cases hokx : venue = "okx"
    · rw [if_pos (hgated'.mpr (.inr hokx)), interp_pure, exec_pure, hmarked]
      simp [hokx]
    · have hno : u'.intentGated = false := by simpa [hgated, hokx] using hgated'
      have hrest : ∀ now, booksOf now = ⟨none, (booksOf past).taken ++ [(venue, orders)]⟩ →
          booksOf ((unwound ops (unwindRounds [venue] left u')).exec world now).1 =
            ⟨none, (booksOf past).taken ++ List.replicate (left + 1) (venue, orders)⟩ := by
        intro now hnow
        rw [ih (by rw [hnow]) hno, hnow]
        simp [hokx, List.replicate_succ]
      rw [hno, if_neg (by simp), if_neg (by simp), if_neg (by simp), if_neg hokx]
      split_ifs
      · rw [interp_bind, exec_bind, interp_query, exec_answerJob (by simp)]
        exact hrest _ (by rw [booksOf_append, hmarked]; rfl)
      · exact hrest _ hmarked

theorem run_steady (customer : String) :
    (booksOf ((unwound ops (run customer [venue])).exec world []).1).taken =
      List.replicate (if venue = "okx" then 1 else maxRounds) (venue, orders) := by
  obtain ⟨started, finished, state, bundle, path, hpast⟩ := @exec_run ops world customer [venue]
  rw [List.filter_singleton, hvenue] at hpast
  have hrounds := @unwindRounds_steady ops world hworld venue hvenue orders hempty hbook hstopped
    maxRounds { progress := startingProgress [venue] } _ (blocked_start started [venue]).listed rfl
  rw [hpast]
  simp only [booksOf_append, cond_true, hrounds]
  simp [Books.note, booksOf, maxRounds]

end

end

/-! ### One order on OKX -/

/-- The last act of the job is to report the error. -/
def EndsWithError (text : String) (past : List UnwindEvent) : Prop :=
  ∃ f, past.getLast? = some ⟨.job (.updateReconcile f), ()⟩ ∧
    ∀ status : ReconcileStatus, (f status).error = some text

theorem okx_last (customer : String) {blobs : List String} (hblobs : blobs.Nodup) :
    "okx" ∉ ((venuesOf customer blobs).filter supported).dropLast := by
  intro hmem
  have hne : (venuesOf customer blobs).filter supported ≠ [] := fun h => by simp [h] at hmem
  have hsorted : ((venuesOf customer blobs).filter supported).Pairwise
      fun a b => a ≤ b ∧ a ≠ b :=
    .filter _ ((List.pairwise_insertionSort (· ≤ ·) _).and (nodup_venuesOf customer hblobs))
  rw [← List.dropLast_append_getLast hne, List.pairwise_append] at hsorted
  obtain ⟨hle, hlast⟩ := hsorted.2.2 "okx" hmem _ (List.mem_singleton_self _)
  have hsupported := (List.mem_filter.mp (List.getLast_mem hne)).2
  rw [supported, decide_eq_true_eq] at hsupported
  rcases hsupported with h | h
  · exact hlast h.symm
  · rw [h] at hle
    exact absurd hle (by decide +kernel)

theorem getLast?_toList_append {a b : String} {c : Char} (hb : b.toList.getLast? = some c) :
    (a ++ b).toList.getLast? = some c := by
  rw [String.toList_append, List.getLast?_append, hb, Option.some_or]

theorem unsupported_ne_intentGatedError (text : String) :
    text ++ "): their books were NOT listed and orders may still be " ++
      "resting — cancel by hand via the venue UI" ≠ intentGatedError := by
  intro h
  have hone : "resting — cancel by hand via the venue UI".toList.getLast? = some 'I' := by
    decide +kernel
  have hother : intentGatedError.toList.getLast? = some '.' :=
    getLast?_toList_append (by decide +kernel)
  have hlast := congrArg (fun s : String => s.toList.getLast?) h
  exact absurd ((getLast?_toList_append hone).symm.trans (hlast.trans hother)) (by decide)

theorem verdict_eq_intentGatedError {venues : List String} {phase : ReconcilePhase} {u : Unwind}
    (hphase : u.intentGated = true → phase = .failed) :
    (verdict venues phase u).2 = some intentGatedError ↔
      (∀ v ∈ venues, supported v = true) ∧ u.intentGated = true := by
  have hall : (venues.filter fun v => !supported v) = [] ↔ ∀ v ∈ venues, supported v = true := by
    simp [List.filter_eq_nil_iff]
  have herror := unsupported_ne_intentGatedError
  unfold verdict
  by_cases hyes : u.intentGated = true
  · have hfailed : verifiedPhase venues phase u = .failed := by simp [verifiedPhase, hphase hyes]
    simp only [hfailed, hyes, ← hall, ne_eq, reduceCtorEq, not_false_eq_true, and_true, if_true]
    split_ifs with hnone
    · exact iff_of_true rfl hnone
    · exact iff_of_false (fun h => herror _ (Option.some.inj h)) hnone
  · refine iff_of_false ?_ fun h => hyes h.2
    dsimp only
    split_ifs with hunsupported
    · exact fun h => herror _ (Option.some.inj h)
    · simp

theorem endsWithError_iff {text : String} {past : List UnwindEvent} {phase : ReconcilePhase}
    {finished : ℕ} {u : Unwind} {path jobError : Option String}
    (hend : past.getLast? =
      some ⟨.job (.updateReconcile (.markFinal phase finished u path jobError)), ()⟩) :
    EndsWithError text past ↔ jobError = some text := by
  constructor
  · rintro ⟨f, hf, herror⟩
    have hquery := congrArg Sigma.fst (Option.some.inj (hend.symm.trans hf))
    have hf := JobQuery.updateReconcile.inj (UnwindQuery.job.inj hquery)
    have hstatus := herror (.pending 0)
    rw [← hf] at hstatus
    exact Option.or_none.symm.trans hstatus
  · exact fun h => ⟨_, hend, fun status => by rw [ReconcileStatus.markFinal, h]; rfl⟩

theorem cancels_le_one_iff {taken : List (String × List OpenOrder)}
    (hbooks : ∀ book ∈ taken, supported book.1 = true ∧ book.2 ≠ []) :
    (taken.map cancelsFor).sum ≤ 1 ∧ (∃ book ∈ taken, book.1 = "okx") ↔
      ∃ order, taken = [("okx", [order])] := by
  have hpos : ∀ book ∈ taken, 1 ≤ cancelsFor book := by
    intro book hbook
    have hne := (hbooks book hbook).2
    unfold cancelsFor
    split_ifs
    · exact List.length_pos_iff.mpr hne
    · refine Finset.card_pos.mpr ?_
      obtain ⟨order, horder⟩ := List.exists_mem_of_ne_nil _ hne
      exact ⟨order.symbol, List.mem_toFinset.mpr (List.mem_map_of_mem horder)⟩
  constructor
  · rintro ⟨hsum, ⟨venue, orders⟩, hbook, hokx⟩
    rcases taken with _ | ⟨first, _ | ⟨second, rest⟩⟩
    · exact absurd hbook List.not_mem_nil
    · obtain rfl : (venue, orders) = first := List.mem_singleton.mp hbook
      obtain rfl : venue = "okx" := hokx
      have horders : orders.length = 1 := by
        refine le_antisymm ?_ (hpos _ hbook)
        simpa [cancelsFor] using hsum
      obtain ⟨order, rfl⟩ := List.length_eq_one_iff.mp horders
      exact ⟨order, rfl⟩
    · have hfirst := hpos first (by simp)
      have hsecond := hpos second (by simp)
      simp only [List.map_cons, List.sum_cons] at hsum
      omega
  · rintro ⟨order, rfl⟩
    exact ⟨by simp [cancelsFor], _, List.mem_singleton_self _, rfl⟩

/-- A run whose cancels are all refused makes one attempt at most and ends with the instruction of
the intent gate exactly where every venue of the customer can be unwound and all that the run takes
up is a single order on OKX. -/
theorem blocked_unwind_stops_iff (ops : GatewayOps) (customer : String) {blobs : List String}
    (hblobs : blobs.Nodup) (world : List UnwindEvent → (q : UnwindQuery) → q.Answer)
    (hworld : RefusesCancels world) :
    let venues := venuesOf customer blobs
    let past := ((unwound ops (run customer venues)).exec world []).1
    (signAttempts past ≤ 1 ∧ EndsWithError intentGatedError past) ↔
      (∀ v ∈ venues, supported v = true) ∧
        ∃ order, (booksOf past).taken = [("okx", [order])] := by
  intro venues past
  obtain ⟨phase, u, finished, path, hblocked, hphase, hend⟩ :=
    @run_blocked ops world hworld customer venues (okx_last customer hblobs)
  rw [endsWithError_iff hend, verdict_eq_intentGatedError hphase, hblocked.attempts, hblocked.gated,
    ← cancels_le_one_iff hblocked.books]
  exact and_left_comm

namespace Sample

def liveOps : GatewayOps where
  format := { display := fun _ => "", debug := fun _ => "" }
  okxIsDemo := false
  binanceSignedUrl path query headers := .ok ("https://fapi.binance.com" ++ path ++ "?" ++ query,
    headers)

def refusingWorld (book : String → List OpenOrder) (_past : List UnwindEvent) :
    (q : UnwindQuery) → q.Answer
  | .job .nowUnix => 1
  | .job .stateOf => .halted
  | .job (.updateReconcile _) => ()
  | .job (.listOpen venue) => (.ok (book venue), [])
  | .job (.cancel _ _) => ([], [])
  | .job (.sleep _) => ()
  | .job (.writeBundle _) => none
  | .venue (.signAccountRead _ method _ _) => if method = "DELETE" then .error 400 else .ok []
  | .venue (.signOkxCancel _ _) => .error 400
  | .venue (.send ..) => .error "not reached"
  | .venue (.sleep _) => ()

theorem refusesCancels_refusingWorld (book : String → List OpenOrder) :
    RefusesCancels (refusingWorld book) :=
  ⟨fun _ _ _ => rfl, fun _ _ _ _ => rfl⟩

def refusedRun (blobs : List String) (book : String → List OpenOrder) : List UnwindEvent :=
  ((unwound liveOps (run "c" (venuesOf "c" blobs))).exec (refusingWorld book) []).1

section

variable {venue : String} {blobs : List String} {book : String → List OpenOrder}
  (hvenue : supported venue = true) (hblobs : venuesOf "c" blobs = [venue]) (hempty : book venue ≠ [])

include hvenue hblobs hempty

theorem taken_refusedRun : (booksOf (refusedRun blobs book)).taken =
    List.replicate (if venue = "okx" then 1 else maxRounds) (venue, book venue) := by
  rw [refusedRun, hblobs]
  exact run_steady (refusesCancels_refusingWorld book) hvenue hempty (fun _ => ⟨_, rfl⟩)
    (fun _ => nofun) "c"

theorem attempts_refusedRun : signAttempts (refusedRun blobs book) =
      (if venue = "okx" then 1 else maxRounds) * cancelsFor (venue, book venue) ∧
    (EndsWithError intentGatedError (refusedRun blobs book) → venue = "okx") := by
  have htaken := taken_refusedRun hvenue hblobs hempty
  have hlast : "okx" ∉ ([venue].filter supported).dropLast := by simp [hvenue]
  rw [refusedRun, hblobs] at htaken ⊢
  obtain ⟨phase, u, finished, path, hblocked, hphase, hend⟩ :=
    @run_blocked liveOps _ (refusesCancels_refusingWorld book) "c" [venue] hlast
  rw [hblocked.attempts, endsWithError_iff hend, verdict_eq_intentGatedError hphase, hblocked.gated,
    htaken]
  refine ⟨by rw [List.map_replicate, List.sum_replicate, Nat.nsmul_eq_mul], ?_⟩
  rintro ⟨-, taken, hmem, hokx⟩
  rwa [List.eq_of_mem_replicate hmem] at hokx

end

def otherOrder : OpenOrder := { oneOrder with orderId := "7342" }

def futuresOrder : OpenOrder := { venue := "binance", symbol := "BTCUSDT", orderId := "8101" }

end Sample

/-- A single order on OKX: one attempt, and the instruction. -/
theorem blocked_unwind_stops_iff_oneOrder :
    let past := Sample.refusedRun ["c/okx"] fun _ => [Sample.oneOrder]
    signAttempts past ≤ 1 ∧ EndsWithError intentGatedError past := by
  have htaken := @Sample.taken_refusedRun "okx" ["c/okx"] (fun _ => [Sample.oneOrder]) (by decide)
    (by decide +kernel) (by simp)
  rw [Sample.refusedRun, if_pos rfl, List.replicate_one] at htaken
  -- by rewriting: to compare the two by reduction is to run the job
  have hrun := Sample.refusedRun.eq_1 ["c/okx"] fun _ => [Sample.oneOrder]
  intro past
  rw [show past = _ from hrun]
  exact (@blocked_unwind_stops_iff Sample.liveOps "c" ["c/okx"] (by decide) _
    (Sample.refusesCancels_refusingWorld fun _ => [Sample.oneOrder])).mpr
    ⟨by decide +kernel, Sample.oneOrder, htaken⟩

/-- Two orders on OKX are asked for both; an order on Binance is asked for in every round, and the
run ends without the instruction. -/
theorem blocked_unwind_repeats :
    signAttempts (Sample.refusedRun ["c/okx"] fun _ => [Sample.oneOrder, Sample.otherOrder]) = 2 ∧
    signAttempts (Sample.refusedRun ["c/binance"] fun _ => [Sample.futuresOrder]) = 5 ∧
    ¬ EndsWithError intentGatedError
      (Sample.refusedRun ["c/binance"] fun _ => [Sample.futuresOrder]) := by
  obtain ⟨hokx, -⟩ := @Sample.attempts_refusedRun "okx" ["c/okx"]
    (fun _ => [Sample.oneOrder, Sample.otherOrder]) (by decide) (by decide +kernel) (by simp)
  obtain ⟨hbinance, hends⟩ := @Sample.attempts_refusedRun "binance" ["c/binance"]
    (fun _ => [Sample.futuresOrder]) (by decide) (by decide +kernel) (by simp)
  exact ⟨hokx, hbinance, fun h => absurd (hends h) (by decide)⟩

end Signer.Gateway
