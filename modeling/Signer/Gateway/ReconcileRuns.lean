import Signer.Gateway.Reconcile

/-!
# What a finished unwind means

What a job reports, whatever the venues answered on the way.
-/

namespace Signer.Gateway

open Program

variable {venue : String} {orders : List OpenOrder} {format : ValueFormat}

abbrev JobEvent := Program.Event JobQuery JobQuery.Answer

def isVenueCall : JobEvent → Bool
  | ⟨.listOpen _, _⟩ | ⟨.cancel _ _, _⟩ => true
  | _ => false

def venueCalls (past : List JobEvent) : List JobEvent := past.filter isVenueCall

def isListing (venue : String) : JobEvent → Bool
  | ⟨.listOpen v, _⟩ => v = venue
  | _ => false

def listings (venue : String) (past : List JobEvent) : ℕ := past.countP (isListing venue)

def EmptyListing (venue : String) (event : JobEvent) : Prop :=
  ∃ raw : List RawExchange, event = ⟨.listOpen venue, (.ok [], raw)⟩

def anything (_ : List JobEvent) (_ : JobQuery) : Prop := True

@[simp]
theorem listings_append (venue : String) (past events : List JobEvent) :
    listings venue (past ++ events) = listings venue past + listings venue events :=
  List.countP_append

@[simp]
theorem venueCalls_append (past events : List JobEvent) :
    venueCalls (past ++ events) = venueCalls past ++ venueCalls events :=
  List.filter_append ..

/-! ### One round -/

section

variable {past : List JobEvent} {u : Unwind}

@[simp]
theorem Unwind.rounds_modify {f : VenueReconcile → VenueReconcile} :
    (u.modify venue f).rounds = u.rounds := rfl

@[simp]
theorem Unwind.rounds_noteListed :
    (u.noteListed venue orders).rounds = u.rounds := rfl

@[simp]
theorem Unwind.rounds_noteOutcomes {outcomes : List CancelOutcome} :
    (u.noteOutcomes venue orders outcomes).rounds = u.rounds := by
  unfold noteOutcomes
  generalize (orders.zip outcomes).map (·.2) = results
  induction results generalizing u with
  | nil => rfl
  | cons result results ih =>
    rw [List.foldl_cons, ih]
    cases result <;> rfl

def RoundEnd.Sound (venues : List String) (u : Unwind) (clean : Bool) (before : List JobEvent)
    (now : List JobEvent) : RoundEnd → Prop
  | .released u' =>
    u'.rounds = u.rounds ∧ ∀ v, listings v now ≤ listings v before + venues.count v
  | .complete u' clean' =>
    u'.rounds = u.rounds ∧ (∀ v, listings v now ≤ listings v before + venues.count v) ∧
      (clean' = true → clean = true ∧ ∃ events, List.Forall₂ EmptyListing venues events ∧
        venueCalls now = venueCalls before ++ events)

theorem unwindVenue_sound (venue : String) (u : Unwind) (clean : Bool) (past : List JobEvent) :
    (unwindVenue venue u clean).Follows anything past
      (RoundEnd.Sound [venue] u clean past) := by
  have hlistings : ∀ (answer : JobQuery.Answer (.listOpen venue)) (v : String),
      listings v (past ++ [⟨.listOpen venue, answer⟩]) ≤ listings v past + [venue].count v := by
    intro answer v
    rw [listings_append]
    by_cases hv : venue = v <;> simp [listings, isListing, hv]
  simp only [unwindVenue, follows_bind, follows_query, anything, true_and]
  rintro ⟨listed, raw⟩
  cases listed with
  | error e => exact ⟨rfl, hlistings _, by simp⟩
  | ok orders =>
    dsimp only
    split
    · rename_i hempty
      subst hempty
      refine ⟨rfl, hlistings _, fun hclean => ⟨hclean, [_], .cons ⟨raw, rfl⟩ .nil, ?_⟩⟩
      rw [venueCalls_append]
      rfl
    · simp only [follows_bind, follows_query, anything, true_and]
      intro state
      split
      · refine ⟨rfl, fun v => ?_⟩
        rw [listings_append]
        exact hlistings (.ok orders, raw) v
      · simp only [follows_bind, follows_query, follows_pure, anything,
          true_and]
        rintro ⟨outcomes, cancelRaw⟩
        refine ⟨by simp, fun v => ?_, by simp⟩
        rw [listings_append, listings_append]
        exact hlistings (.ok orders, raw) v

theorem unwindVenues_sound (venues : List String) (u : Unwind) (clean : Bool)
    (past : List JobEvent) :
    (unwindVenues venues u clean).Follows anything past
      (RoundEnd.Sound venues u clean past) := by
  induction venues generalizing u clean past with
  | nil => exact ⟨rfl, by simp, fun hclean => ⟨hclean, [], .nil, by simp⟩⟩
  | cons venue venues ih =>
    rw [unwindVenues, follows_bind]
    refine (unwindVenue_sound venue u clean past).mono fun now result hresult => ?_
    cases result with
    | released u' =>
      refine ⟨hresult.1, fun v => (hresult.2 v).trans ?_⟩
      rw [List.count_singleton, List.count_cons]
      omega
    | complete u' clean' =>
      obtain ⟨hrounds, hlistings, hclean⟩ := hresult
      refine (ih u' clean' now).mono fun later result hresult => ?_
      have hmore : ∀ v, listings v later ≤ listings v now + venues.count v →
          listings v later ≤ listings v past + (venue :: venues).count v := by
        intro v hv
        have hfirst := hlistings v
        rw [List.count_singleton] at hfirst
        rw [List.count_cons]
        omega
      cases result with
      | released u'' => exact ⟨hresult.1.trans hrounds, fun v => hmore v (hresult.2 v)⟩
      | complete u'' clean'' =>
        obtain ⟨hrounds', hlistings', hclean'⟩ := hresult
        refine ⟨hrounds'.trans hrounds, fun v => hmore v (hlistings' v), fun h => ?_⟩
        obtain ⟨hc, events, hevents, hcalls⟩ := hclean' h
        obtain ⟨hc₀, first, hfirst, hcalls₀⟩ := hclean hc
        cases hfirst with
        | cons hhead hnil =>
          cases hnil
          exact ⟨hc₀, _, .cons hhead hevents, by rw [hcalls, hcalls₀, List.append_assoc]; rfl⟩

/-! ### All rounds -/

def RoundsBounded (venues : List String) (u : Unwind) (now : List JobEvent) : Prop :=
  u.rounds ≤ maxRounds ∧ ∀ v, listings v now ≤ u.rounds * venues.count v

/-- The last listings of the run are one of every venue, each empty. -/
def EndsEmpty (venues : List String) (now : List JobEvent) : Prop :=
  ∃ events, List.Forall₂ EmptyListing venues events ∧ events <:+ venueCalls now

theorem unwindRounds_sound (venues : List String) (left : ℕ) (u : Unwind) (past : List JobEvent)
    (hleft : u.rounds + left ≤ maxRounds)
    (hlistings : ∀ v, listings v past ≤ u.rounds * venues.count v) :
    (unwindRounds venues left u).Follows anything past fun now result =>
      RoundsBounded venues result.2 now ∧ (result.1 = .done → EndsEmpty venues now) := by
  induction left generalizing u past with
  | zero => exact ⟨⟨hleft, hlistings⟩, by simp⟩
  | succ left ih =>
    -- the count of the round that begins
    have hnext : ∀ (v : String) (n : ℕ), n ≤ listings v past + venues.count v →
        n ≤ (u.rounds + 1) * venues.count v := by
      intro v n hn
      have hpast := hlistings v
      rw [Nat.add_mul, Nat.one_mul]
      omega
    simp only [unwindRounds, follows_bind, follows_query, anything, true_and]
    intro state
    split
    · refine ⟨⟨by dsimp only; omega, fun v => hnext v _ ?_⟩, by simp⟩
      rw [listings_append]
      exact Nat.le_add_right _ _
    · rw [follows_bind]
      refine (unwindVenues_sound venues _ true _).mono fun now result hresult => ?_
      have hround : ∀ v, listings v (past ++ [⟨JobQuery.stateOf, state⟩]) = listings v past :=
        fun v => listings_append v past _
      cases result with
      | released u' =>
        obtain ⟨hrounds, hcount⟩ := hresult
        refine ⟨⟨by dsimp only at hrounds ⊢; omega, fun v => ?_⟩, by simp⟩
        rw [hrounds]
        exact hnext v _ (hround v ▸ hcount v)
      | complete u' clean =>
        obtain ⟨hrounds, hcount, hclean⟩ := hresult
        dsimp only at hrounds
        have hbounded : ∀ events, (∀ v, listings v events = 0) →
            RoundsBounded venues u' (now ++ events) := by
          refine fun events hevents => ⟨by omega, fun v => ?_⟩
          rw [listings_append, hevents v, hrounds]
          exact hnext v _ (hround v ▸ hcount v)
        have hempty : ∀ events, venueCalls events = [] → clean = true →
            EndsEmpty venues (now ++ events) := by
          intro events hevents h
          obtain ⟨-, listed, hlisted, hcalls⟩ := hclean h
          refine ⟨listed, hlisted, ?_⟩
          rw [venueCalls_append, hevents, List.append_nil, hcalls]
          exact List.suffix_append _ _
        simp only [follows_bind, follows_query, anything, true_and]
        intro _
        split_ifs with hgated hdone hfirst hsleep
        · exact ⟨hbounded _ fun v => rfl, by simp⟩
        · exact ⟨hbounded _ fun v => rfl, fun _ => hempty _ rfl hdone.1⟩
        · exact ⟨hbounded _ fun v => rfl, fun _ => hempty _ rfl hfirst.1⟩
        · simp only [follows_bind, follows_query, anything, true_and]
          intro _
          rw [List.append_assoc]
          exact ih _ _ (by omega) (hbounded _ fun v => rfl).2
        · exact ih _ _ (by omega) (hbounded _ fun v => rfl).2

/-! ### The whole job -/

theorem verdict_eq_done {venues : List String} {phase : ReconcilePhase} {u : Unwind}
    (h : (verdict venues phase u).1 = .done) :
    phase = .done ∧ ∀ v ∈ venues, supported v = true := by
  unfold verdict at h
  dsimp only at h
  split at h
  · cases h
  rename_i hreached
  dsimp only at h
  rw [h, not_and_or, not_ne_iff] at hreached
  refine ⟨?_, ?_⟩
  · unfold verifiedPhase at h
    split at h
    · cases h
    · exact h
  · rcases hreached with hnone | hterminated
    · simpa [List.filter_eq_nil_iff] using hnone
    · exact absurd (by decide) hterminated

/-- A bundle was written that states the phase and no fewer rounds than were made. -/
def Reported (venues : List String) (now : List JobEvent) (phase : ReconcilePhase) : Prop :=
  ∃ bundle path, ⟨.writeBundle bundle, path⟩ ∈ now ∧ bundle.phase = phase ∧
    bundle.rounds ≤ maxRounds ∧ ∀ v, listings v now ≤ bundle.rounds * venues.count v

theorem finish_sound (customer : String) (venues : List String) (started : ℕ)
    (phase : ReconcilePhase) (u : Unwind) (past : List JobEvent)
    (hrounds : RoundsBounded (venues.filter supported) u past)
    (hdone : phase = .done → EndsEmpty (venues.filter supported) past) :
    (finish customer venues started phase u).Follows anything past fun now result =>
      Reported (venues.filter supported) now result ∧
        (result = .done → (∀ v ∈ venues, supported v = true) ∧ EndsEmpty venues now) := by
  simp only [finish, follows_bind, follows_query, follows_pure, anything,
    true_and]
  intro finished state path _
  refine ⟨⟨_, path, by simp, rfl, hrounds.1, fun v => ?_⟩, fun h => ?_⟩
  · simp only [listings_append]
    exact hrounds.2 v
  · obtain ⟨hphase, hall⟩ := verdict_eq_done h
    obtain ⟨events, hevents, hsuffix⟩ := hdone hphase
    rw [List.filter_eq_self.mpr hall] at hevents
    refine ⟨hall, events, hevents, ?_⟩
    simpa [venueCalls, isVenueCall] using hsuffix

theorem run_sound (customer : String) (venues : List String) :
    (run customer venues).Follows anything [] fun now result =>
      Reported (venues.filter supported) now result ∧
        (result = .done → (∀ v ∈ venues, supported v = true) ∧ EndsEmpty venues now) := by
  simp only [run, follows_bind, follows_query, anything, true_and]
  intro started _
  refine (unwindRounds_sound (venues.filter supported) maxRounds _ _ (by simp) ?_).mono ?_
  · intro v
    exact Nat.zero_le _
  · rintro now ⟨phase, u⟩ ⟨hrounds, hdone⟩
    exact finish_sound customer venues started phase u now hrounds hdone

end

/-! ### What a listing reads -/

theorem mapM_eq_ok_iff {α β ε : Type} {f : α → Except ε β} {rows : List α} {values : List β} :
    rows.mapM f = .ok values ↔ List.Forall₂ (fun row value => f row = .ok value) rows values := by
  induction rows generalizing values with
  | nil => cases values <;> simp [pure, Except.pure]
  | cons row rows ih =>
    rw [List.mapM_cons]
    cases values with
    | nil =>
      cases hrow : f row <;> cases hrows : rows.mapM f <;>
        simp [Bind.bind, Except.bind, pure, Except.pure]
    | cons value values =>
      rw [List.forall₂_cons, ← ih]
      cases hrow : f row <;> cases hrows : rows.mapM f <;>
        simp [Bind.bind, Except.bind, pure, Except.pure]

def OkxOrderRow (row : Json) (order : OpenOrder) : Prop :=
  row.get "instId" = some (.string order.symbol) ∧ order.symbol ≠ "" ∧
    row.get "ordId" = some (.string order.orderId) ∧ order.orderId ≠ ""

def BinanceOrderRow (format : ValueFormat) (row : Json) (order : OpenOrder) : Prop :=
  row.get "symbol" = some (.string order.symbol) ∧ order.symbol ≠ "" ∧
    (row.get "orderId" = some (.string order.orderId) ∨
      ∃ n, row.get "orderId" = some (.number n) ∧ order.orderId = format.display (.number n)) ∧
    order.orderId ≠ ""

def IsOrderList (format : ValueFormat) (venue : String) (json : Json) (orders : List OpenOrder) :
    Prop :=
  (venue = "okx" ∧ json.get "code" = some (.string "0") ∧
    ∃ rows, json.get "data" = some (.array rows) ∧ List.Forall₂ OkxOrderRow rows orders) ∨
  (venue = "binance" ∧
    ∃ rows, json = .array rows ∧ List.Forall₂ (BinanceOrderRow format) rows orders)

theorem asStr_bind_eq_some {value : Option Json} {s : String}
    (h : value.bind Json.asStr = some s) : value = some (.string s) := by
  obtain ⟨json, rfl, hjson⟩ := Option.bind_eq_some_iff.mp h
  cases json <;> simp_all [Json.asStr]

theorem okxRow_eq_ok {row : Json} {order : OpenOrder} (h : okxRow row = .ok order) :
    OkxOrderRow row order := by
  unfold okxRow at h
  split at h
  · rename_i symbol orderId hsymbol horder
    split at h
    · rename_i hnonempty
      cases h
      exact ⟨asStr_bind_eq_some hsymbol, hnonempty.1, asStr_bind_eq_some horder, hnonempty.2⟩
    · cases h
  · cases h

theorem parseOkxOpenOrders_eq_ok {status : ℕ} {json : Json}
    (h : parseOkxOpenOrders format status json = .ok orders) :
    status = 200 ∧ IsOrderList format "okx" json orders := by
  unfold parseOkxOpenOrders at h
  split_ifs at h with hstatus hcode
  · rw [not_ne_iff] at hstatus hcode
    split at h
    · cases h
    rename_i rows hdata
    obtain ⟨data, hget, harray⟩ := Option.bind_eq_some_iff.mp hdata
    have hrows : json.get "data" = some (.array rows) := by
      cases data <;> simp_all [Json.asArray]
    have horders := mapM_eq_ok_iff.mp h
    exact ⟨hstatus, .inl ⟨rfl, asStr_bind_eq_some hcode, rows, hrows,
      horders.imp fun _ _ => okxRow_eq_ok⟩⟩

theorem binanceRow_eq_ok {row : Json} {order : OpenOrder} (h : binanceRow format row = .ok order) :
    BinanceOrderRow format row order := by
  unfold binanceRow at h
  dsimp only at h
  split at h
  · rename_i symbol orderId hsymbol horder
    split at h
    · rename_i hnonempty
      cases h
      refine ⟨asStr_bind_eq_some hsymbol, hnonempty.1, ?_, hnonempty.2⟩
      obtain ⟨value, hvalue, rfl⟩ := Option.map_eq_some_iff.mp horder
      cases value with
      | number n => exact .inr ⟨n, hvalue, rfl⟩
      | string s => exact .inl hvalue
      | null => exact absurd rfl hnonempty.2
      | bool b => exact absurd rfl hnonempty.2
      | array items => exact absurd rfl hnonempty.2
      | object members => exact absurd rfl hnonempty.2
    · cases h
  · cases h

theorem parseBinanceOpenOrders_eq_ok {status : ℕ} {json : Json}
    (h : parseBinanceOpenOrders format status json = .ok orders) :
    status = 200 ∧ IsOrderList format "binance" json orders := by
  unfold parseBinanceOpenOrders at h
  split_ifs at h with hstatus
  · split at h
    · cases h
    · rename_i rows harray
      have hjson : json = .array rows := by
        cases json <;> simp_all [Json.asArray]
      have horders := mapM_eq_ok_iff.mp h
      exact ⟨not_ne_iff.mp hstatus, .inr ⟨rfl, rows, hjson,
        horders.imp fun _ _ => binanceRow_eq_ok⟩⟩

theorem lookup_insertEntry {α : Type} (key other : String) (value : α)
    (entries : List (String × α)) :
    (insertEntry key value entries).lookup other =
      if other = key then some value else entries.lookup other := by
  induction entries with
  | nil =>
    rw [insertEntry, List.lookup_cons]
    by_cases h : other = key
    · simp [h]
    · simp [h, beq_false_of_ne h]
  | cons entry entries ih =>
    obtain ⟨k, v⟩ := entry
    by_cases hother : other = key
    · subst hother
      rw [insertEntry, if_pos rfl]
      split_ifs with hlt hsame
      · simp
      · simp
      · rw [List.lookup_cons, beq_false_of_ne hsame, ih, if_pos rfl]
    · rw [insertEntry, if_neg hother]
      split_ifs with hlt hsame
      · rw [List.lookup_cons, beq_false_of_ne hother]
      · subst hsame
        rw [List.lookup_cons, List.lookup_cons, beq_false_of_ne hother]
      · rw [List.lookup_cons, List.lookup_cons, ih, if_neg hother]

namespace GatewayOps

abbrev VenueEvent := Program.Event VenueQuery VenueQuery.Answer

def anyAnswer (_ : List VenueEvent) (_ : VenueQuery) : Prop := True

/-- The venue answered the last request with a well-formed list. -/
def Answered (format : ValueFormat) (venue : String) (now : List VenueEvent)
    (orders : List OpenOrder) : Prop :=
  ∃ earlier url headers response json,
    now = earlier ++ [⟨.send venue "list" "GET" url headers none, .ok response⟩] ∧
      response.status = 200 ∧ response.json = .ok json ∧ IsOrderList format venue json orders

theorem send_follows (venue op method url : String) (headers : HttpHeaders) (body : Option String)
    (raw : List RawExchange) (past : List VenueEvent) :
    (send venue op method url headers body raw).Follows anyAnswer past fun now result =>
      ∀ status json, result.1 = .ok (status, json) →
        ∃ response, now = past ++ [⟨.send venue op method url headers body, .ok response⟩] ∧
          response.status = status ∧ response.json = .ok json := by
  simp only [send, follows_bind, follows_query, anyAnswer, true_and]
  intro answer
  cases answer with
  | error e => simp
  | ok response =>
    dsimp only
    split
    · simp
    · rename_i value hvalue
      rw [follows_pure]
      intro status json hresult
      cases hresult
      exact ⟨response, rfl, rfl, hvalue⟩

theorem send_list_answered {parse : ℕ → Json → Except String (List OpenOrder)}
    (hparse : ∀ status json orders, parse status json = .ok orders →
      status = 200 ∧ IsOrderList format venue json orders) (url : String) (headers : HttpHeaders)
    (past : List VenueEvent) :
    (do
      let sent ← send venue "list" "GET" url headers none []
      pure (sent.1.bind fun r => parse r.1 r.2, sent.2) : VenueProgram _).Follows anyAnswer past
        fun now result => ∀ orders, result.1 = .ok orders → Answered format venue now orders := by
  rw [follows_bind]
  refine (send_follows ..).mono fun now sent hsent => ?_
  rw [follows_pure]
  intro orders horders
  cases hresult : sent.1 with
  | error e =>
    rw [hresult] at horders
    cases horders
  | ok answer =>
    rw [hresult] at horders
    obtain ⟨response, hlast, hstatus, hjson⟩ := hsent _ _ hresult
    obtain ⟨h200, hlist⟩ := hparse _ _ _ horders
    exact ⟨past, url, headers, response, _, hlast, hstatus.trans h200, hjson, hlist⟩

theorem listOpen_answered (ops : GatewayOps) (venue : String) (past : List VenueEvent) :
    (ops.listOpen venue).Follows anyAnswer past fun now result =>
      ∀ orders, result.1 = .ok orders → Answered ops.format venue now orders := by
  have hallowed : ∀ past q, anyAnswer past q := fun _ _ => True.intro
  unfold listOpen
  split_ifs with hokx hbinance
  · subst hokx
    rw [follows_bind]
    refine (follows_true hallowed _).mono fun now signed _ => ?_
    cases signed with
    | error e => simp
    | ok headers => exact send_list_answered (fun _ _ _ => parseOkxOpenOrders_eq_ok) _ _ now
  · subst hbinance
    rw [follows_bind]
    refine (follows_true hallowed _).mono fun now signed _ => ?_
    cases signed with
    | error e => simp
    | ok headers =>
      dsimp only
      split
      · simp
      · exact send_list_answered (fun _ _ _ => parseBinanceOpenOrders_eq_ok) _ _ now
  · simp

end GatewayOps

/-- Whatever the venues answer and whenever the customer is released, a run ends within its
rounds. It reports that it is done only if the customer has no venue it cannot reach, and the last
calls to the venues were one empty listing of each. A listing of the gateway yields orders only
from a well-formed list, so what is none never counts as an empty book. -/
theorem done_means_verified_empty :
    (∀ (customer : String) (blobs : List String)
      (env : List JobEvent → (q : JobQuery) → q.Answer),
      let venues := venuesOf customer blobs
      let ended := (run customer venues).exec env []
      Reported (venues.filter supported) ended.1 ended.2 ∧
        (ended.2 = .done → (∀ v ∈ venues, supported v = true) ∧ EndsEmpty venues ended.1)) ∧
    ∀ (ops : GatewayOps) (venue : String)
      (env : List GatewayOps.VenueEvent → (q : VenueQuery) → q.Answer),
      let listed := (ops.listOpen venue).exec env []
      ∀ orders, listed.2.1 = .ok orders →
        GatewayOps.Answered ops.format venue listed.1 orders := by
  refine ⟨fun customer blobs env => ?_, fun ops venue env => ?_⟩
  · exact (run_sound customer (venuesOf customer blobs)).exec env
  · exact (ops.listOpen_answered venue []).exec env

namespace Sample

def oneOrder : OpenOrder := { venue := "okx", symbol := "BTC-USDT", orderId := "7341" }

/-- A venue on which `oneOrder` rests: its cancellation has the `outcome`, later listings `later`. -/
def oneOrderWorld (outcome : CancelOutcome) (later : Except String (List OpenOrder))
    (past : List JobEvent) : (q : JobQuery) → q.Answer
  | .nowUnix => 1
  | .stateOf => .halted
  | .updateReconcile _ => ()
  | .listOpen venue => (if listings venue past = 0 then .ok [oneOrder] else later, [])
  | .cancel _ _ => ([outcome], [])
  | .sleep _ => ()
  | .writeBundle _ => none

def oneOrderRun (outcome : CancelOutcome) (later : Except String (List OpenOrder)) :
    List JobEvent × ReconcilePhase :=
  (run "c" (venuesOf "c" ["c/okx"])).exec (oneOrderWorld outcome later) []

def emptyAnswer (_ : List GatewayOps.VenueEvent) : (q : VenueQuery) → q.Answer
  | .signAccountRead .. => .ok []
  | .signOkxCancel .. => .error 400
  | .send .. => .ok { status := 200, text := "[]", json := .ok (.array []) }
  | .sleep _ => ()

def ops : GatewayOps where
  format := { display := fun _ => "", debug := fun _ => "" }
  okxIsDemo := true
  binanceSignedUrl := fun path _ headers => .ok (path, headers)

end Sample

/-- An order is cancelled, the book listed again and found empty: the run is done. The listing of
an empty book is read. -/
theorem done_means_verified_empty_sample :
    (Sample.oneOrderRun .cancelled (.ok [])).2 = .done ∧
    ⟨.cancel "okx" [Sample.oneOrder], [.cancelled], []⟩ ∈
      (Sample.oneOrderRun .cancelled (.ok [])).1 ∧
    listings "okx" (Sample.oneOrderRun .cancelled (.ok [])).1 = 2 ∧
    EndsEmpty (venuesOf "c" ["c/okx"]) (Sample.oneOrderRun .cancelled (.ok [])).1 ∧
    GatewayOps.Answered Sample.ops.format "binance"
      ((Sample.ops.listOpen "binance").exec Sample.emptyAnswer []).1 [] := by
  have hdone : (Sample.oneOrderRun .cancelled (.ok [])).2 = .done := by decide +kernel
  have hcancelled : ((Sample.oneOrderRun .cancelled (.ok [])).1)[5]? =
      some ⟨.cancel "okx" [Sample.oneOrder], [.cancelled], []⟩ := rfl
  refine ⟨hdone, List.mem_of_getElem? hcancelled, by decide +kernel, ?_, ?_⟩
  · exact ((done_means_verified_empty.1 "c" ["c/okx"]
      (Sample.oneOrderWorld .cancelled (.ok []))).2 hdone).2
  · exact done_means_verified_empty.2 Sample.ops "binance" Sample.emptyAnswer [] rfl

end Signer.Gateway
