import StacksApi.Routes.Faucets

/-!
# The limit of the faucets

What the two routes keep at every step, in whatever order their steps fall and
whichever of them fail: no five minutes hold more than five recorded requests of
a currency and an address.  Payments are recorded one by one as long as nothing
fails between a bitcoin payment and its row.
-/

namespace StacksApi.Routes

open StacksApi.Relational
open StacksApi.Datastore
open StacksApi.Transition

/-! ## Counting -/

/-- The rows of a currency and an address from a time on. -/
def countSince (rows : List DbFaucetRequest) (currency : DbFaucetRequestCurrency)
    (address : String) (since : Int) : Nat :=
  rows.countP fun row => row.isOf currency address ∧ since ≤ row.occurredAt

/-- The rows of a currency and an address in the five minutes from a time on. -/
def countInWindow (rows : List DbFaucetRequest) (currency : DbFaucetRequestCurrency)
    (address : String) (since : Int) : Nat :=
  rows.countP fun row => row.isOf currency address ∧ since ≤ row.occurredAt ∧
    row.occurredAt ≤ since + faucetWindow

/-- What the query has returned when the rows of the address stay the same. -/
def LatestFive (rows : List DbFaucetRequest) (currency : DbFaucetRequestCurrency)
    (address : String) (lastRequests : List DbFaucetRequest) : Prop :=
  ∃ scanned : List DbFaucetRequest,
    scanned.Perm (rows.filter (DbFaucetRequest.isOf currency address)) ∧
      lastRequests = (orderByDesc DbFaucetRequest.occurredAt scanned).take 5

variable {rows lastRequests : List DbFaucetRequest} {currency : DbFaucetRequestCurrency}
variable {address : String} {now since : Int} {row : DbFaucetRequest}

theorem countInWindow_le_countSince :
    countInWindow rows currency address since ≤ countSince rows currency address since := by
  apply List.countP_mono_left
  intro row _ inWindow
  simp only [decide_eq_true_eq] at inWindow ⊢
  exact ⟨inWindow.1, inWindow.2.1⟩

theorem countSince_anti {earlier later : Int} (order : earlier ≤ later) :
    countSince rows currency address later ≤ countSince rows currency address earlier := by
  apply List.countP_mono_left
  intro row _ isLater
  simp only [decide_eq_true_eq] at isLater ⊢
  exact ⟨isLater.1, order.trans isLater.2⟩

/-- The five latest rows show whether the limit is hit. -/
theorem length_requestsInWindow (latest : LatestFive rows currency address lastRequests) :
    (requestsInWindow now lastRequests).length =
      min 5 (countSince rows currency address (now - faucetWindow)) := by
  obtain ⟨scanned, perm, rfl⟩ := latest
  have inWindow : (fun r : Int => decide (r ≤ faucetWindow)) ∘
      (fun r : DbFaucetRequest => now - r.occurredAt) =
        fun r => decide (now - faucetWindow ≤ r.occurredAt) := by
    funext r
    apply decide_eq_decide.mpr
    dsimp only
    omega
  rw [requestsInWindow, ← List.countP_eq_length_filter, List.countP_map, inWindow,
    countP_take_orderByDesc, perm.countP_eq, List.countP_filter, countSince]
  congr 2
  funext r
  rw [Bool.decide_and, Bool.decide_eq_true, Bool.and_comm]

theorem LatestFive.insert (latest : LatestFive rows currency address lastRequests)
    (other : row.currency ≠ currency) :
    LatestFive (insertFaucetRequest row rows) currency address lastRequests := by
  obtain ⟨scanned, perm, same⟩ := latest
  refine ⟨scanned, ?_, same⟩
  rw [insertFaucetRequest, List.filter_append]
  simpa [DbFaucetRequest.isOf, other] using perm

/-! ## The invariant -/

/-- The limit is not hit at a time after all requests of the currency. -/
structure Admitted (rows : List DbFaucetRequest) (clock : Int)
    (currency : DbFaucetRequestCurrency) (address : String) (now : Int) : Prop where
  past : now ≤ clock
  latest : ∀ row ∈ rows, row.currency = currency → row.occurredAt ≤ now
  free : countSince rows currency address (now - faucetWindow) < 5

/-- What a route knows of the rows. -/
def FaucetStage.Knows (rows : List DbFaucetRequest) (clock : Int)
    (currency : DbFaucetRequestCurrency) : FaucetStage → Prop
  | .idle => True
  | .fetched post lastRequests => LatestFive rows currency post.address lastRequests
  | .admitted post now => Admitted rows clock currency post.address now
  | .built post now => Admitted rows clock currency post.address now
  | .paid post now => Admitted rows clock currency post.address now
  | .recorded _ _ => True

/-- What holds between steps: the limit is kept, and a request knows the earlier ones. -/
structure FaucetInvariant (state : FaucetState) : Prop where
  past : ∀ row ∈ state.faucetRequests, row.occurredAt ≤ state.clock
  limited : ∀ currency address since,
    countInWindow state.faucetRequests currency address since ≤ 5
  knows : ∀ currency,
    (state.stage currency).Knows state.faucetRequests state.clock currency

theorem FaucetInvariant.start : FaucetInvariant FaucetState.start where
  past := by rintro row ⟨⟩
  limited _ _ _ := Nat.zero_le 5
  knows _ := trivial

theorem FaucetStage.Knows.later {stage : FaucetStage} {clock clock' : Int}
    (knows : stage.Knows rows clock currency) (later : clock ≤ clock') :
    stage.Knows rows clock' currency := by
  cases stage with
  | idle => trivial
  | fetched post lastRequests => exact knows
  | recorded post now => trivial
  | _ => exact { knows with past := knows.past.trans later }

/-- A row of the other currency changes nothing that a route knows. -/
theorem FaucetStage.Knows.insert {stage : FaucetStage} {clock : Int}
    (knows : stage.Knows rows clock currency) (row : DbFaucetRequest)
    (other : row.currency ≠ currency) :
    stage.Knows (insertFaucetRequest row rows) clock currency := by
  have admitted : ∀ {address : String} {now : Int}, Admitted rows clock currency address now →
      Admitted (insertFaucetRequest row rows) clock currency address now := by
    intro address now admitted
    refine ⟨admitted.past, ?_, ?_⟩
    · intro stored mem sameCurrency
      rcases List.mem_append.mp mem with old | new
      · exact admitted.latest stored old sameCurrency
      · rw [List.mem_singleton.mp new] at sameCurrency
        exact absurd sameCurrency other
    · have free := admitted.free
      rw [countSince] at free
      rw [countSince, insertFaucetRequest, List.countP_append, List.countP_singleton]
      simpa [DbFaucetRequest.isOf, other] using free
  cases stage with
  | idle => trivial
  | fetched post lastRequests => exact LatestFive.insert knows other
  | recorded post now => trivial
  | _ => exact admitted knows

/-- A row that is admitted keeps the limit: windows with its time in them have room,
and it is in no other. -/
theorem Admitted.limited {clock : Int} {post : FaucetPost}
    (admitted : Admitted rows clock currency post.address now)
    (limited : ∀ currency address since, countInWindow rows currency address since ≤ 5)
    (other : DbFaucetRequestCurrency) (address : String) (since : Int) :
    countInWindow (rows ++ [post.request currency now]) other address since ≤ 5 := by
  rw [countInWindow, List.countP_append, List.countP_singleton]
  split
  · next inWindow =>
      have inWindow := of_decide_eq_true inWindow
      obtain ⟨ofAddress, low, high⟩ := inWindow
      obtain ⟨rfl, rfl⟩ := of_decide_eq_true ofAddress
      dsimp only [FaucetPost.request] at low high
      have fewer : countInWindow rows currency post.address since ≤
          countSince rows currency post.address (now - faucetWindow) :=
        countInWindow_le_countSince.trans (countSince_anti (by omega))
      have free := admitted.free
      show countInWindow rows currency post.address since + 1 ≤ 5
      omega
  · exact limited other address since

variable {kind : DataStoreKind} {state state' : FaucetState}

theorem FaucetInvariant.enter (invariant : FaucetInvariant state) (stage : FaucetStage)
    (knows : stage.Knows state.faucetRequests state.clock currency) :
    FaucetInvariant (state.enter currency stage) where
  past := invariant.past
  limited := invariant.limited
  knows := by
    intro other
    by_cases same : other = currency
    · subst same
      simpa [FaucetState.enter] using knows
    · simpa [FaucetState.enter, same] using invariant.knows other

theorem FaucetInvariant.tick (invariant : FaucetInvariant state) (later : state.clock ≤ now) :
    FaucetInvariant { state with clock := now } where
  past row mem := (invariant.past row mem).trans later
  limited := invariant.limited
  knows other := (invariant.knows other).later later

/-- The row is written, and the route goes on or ends. -/
theorem FaucetInvariant.insert (invariant : FaucetInvariant state) {post : FaucetPost}
    (stage : FaucetStage)
    (admitted : Admitted state.faucetRequests state.clock currency post.address now)
    (knows : ∀ rows clock, stage.Knows rows clock currency) :
    FaucetInvariant ((state.insert (post.request currency now)).enter currency stage) where
  past := by
    intro row mem
    rcases List.mem_append.mp mem with old | new
    · exact invariant.past row old
    · rw [List.mem_singleton.mp new]
      exact admitted.past
  limited := admitted.limited invariant.limited
  knows := by
    intro other
    by_cases same : other = currency
    · subst same
      simpa [FaucetState.enter] using knows _ _
    · have kept := (invariant.knows other).insert (post.request currency now) (Ne.symm same)
      simpa [FaucetState.enter, FaucetState.insert, same] using kept

/-- Answers and payments are not looked at. -/
theorem FaucetInvariant.congr (invariant : FaucetInvariant state)
    (rows : state'.faucetRequests = state.faucetRequests) (clock : state'.clock = state.clock)
    (stage : state'.stage = state.stage) : FaucetInvariant state' := by
  obtain ⟨past, limited, knows⟩ := invariant
  rw [← rows] at past limited knows
  rw [← clock] at past knows
  rw [← stage] at knows
  exact ⟨past, limited, knows⟩

theorem FaucetStage.ToRecord.admitted {stage : FaucetStage} {post : FaucetPost} {clock : Int}
    (pending : FaucetStage.ToRecord post now currency stage)
    (knows : stage.Knows rows clock currency) :
    Admitted rows clock currency post.address now := by
  cases currency with
  | btc =>
      obtain rfl : stage = .paid post now := pending
      exact knows
  | stx =>
      obtain rfl : stage = .built post now := pending
      exact knows

theorem FaucetInvariant.step {action : FaucetAction} (invariant : FaucetInvariant state)
    (effect : FaucetEffect kind state action state') : FaucetInvariant state' := by
  have idle : ∀ {currency}, FaucetInvariant (state.enter currency .idle) :=
    invariant.enter .idle trivial
  cases effect with
  | ended => exact idle.congr rfl rfl rfl
  | fetched _ scans =>
      apply invariant.enter
      exact ⟨_, scans.perm.filter _, getFaucetRequests_eq _⟩
  | refused _ later _ => exact ((invariant.tick later).enter .idle trivial).congr rfl rfl rfl
  | @admitted currency now post lastRequests stage later free =>
      apply (invariant.tick later).enter
      have latest := invariant.knows currency
      rw [stage] at latest
      rw [length_requestsInWindow latest] at free
      refine ⟨le_refl now, fun row mem _ => (invariant.past row mem).trans later, ?_⟩
      dsimp only
      omega
  | built stage =>
      apply invariant.enter
      have knows := invariant.knows .stx
      rw [stage] at knows
      exact knows
  | @paid post now txId stage =>
      have knows := invariant.knows .btc
      rw [stage] at knows
      exact (invariant.enter (.paid post now) knows).congr rfl rfl rfl
  | unreported => exact idle.congr rfl rfl rfl
  | dropped => exact idle.congr rfl rfl rfl
  | @inserted currency _ _ _ _ pending _ =>
      have admitted := pending.admitted (invariant.knows currency)
      exact (invariant.insert .idle admitted fun _ _ => trivial).congr rfl rfl rfl
  | recorded stage =>
      have knows := invariant.knows .stx
      rw [stage] at knows
      exact invariant.insert (.recorded _ _) knows fun _ _ => trivial
  | sent => exact idle.congr rfl rfl rfl

/-- Before a check, the five latest rows show what is in the window up to its time. -/
theorem FaucetInvariant.length_requestsInWindow (invariant : FaucetInvariant state)
    {post : FaucetPost} (stage : state.stage currency = .fetched post lastRequests)
    (later : state.clock ≤ now) :
    (requestsInWindow now lastRequests).length =
      min 5 (countInWindow state.faucetRequests currency post.address (now - faucetWindow)) := by
  have latest := invariant.knows currency
  rw [stage] at latest
  rw [Routes.length_requestsInWindow latest]
  congr 1
  apply List.countP_congr
  intro row mem
  have past := (invariant.past row mem).trans later
  simp [past]

/-- Only a check answers that there are too many requests. -/
theorem FaucetEffect.of_tooManyRequests {action : FaucetAction} {post : FaucetPost}
    (effect : FaucetEffect kind state action state')
    (answered : state'.answers = state.answers ++ [(currency, post, .tooManyRequests)]) :
    ∃ now lastRequests, action = .check currency now ∧
      state.stage currency = .fetched post lastRequests ∧ state.clock ≤ now ∧
      5 ≤ (requestsInWindow now lastRequests).length := by
  have appended : ∀ {state : FaucetState} {currency' : DbFaucetRequestCurrency}
      {post' : FaucetPost} {response : FaucetResponse},
      (state.answer currency' post' response).answers =
        state.answers ++ [(currency, post, .tooManyRequests)] →
      currency' = currency ∧ post' = post ∧ response = .tooManyRequests := by
    intro state currency' post' response same
    simpa [FaucetState.answer] using same
  have unchanged : state.answers ≠ state.answers ++ [(currency, post, .tooManyRequests)] := by
    intro same
    simpa using congrArg List.length same
  cases effect with
  | ended _ _ _ other => exact absurd (appended answered).2.2 other
  | fetched => exact absurd answered unchanged
  | refused stage later full =>
      obtain ⟨rfl, rfl, -⟩ := appended answered
      exact ⟨_, _, rfl, stage, later, full⟩
  | admitted => exact absurd answered unchanged
  | built => exact absurd answered unchanged
  | paid => exact absurd answered unchanged
  | unreported => exact absurd (appended answered).2.2 nofun
  | dropped => exact absurd (appended answered).2.2 nofun
  | inserted _ _ other => exact absurd (appended answered).2.2 other
  | recorded => exact absurd answered unchanged
  | sent _ other => exact absurd (appended answered).2.2 other

theorem FaucetInvariant.execute {actions : List FaucetAction}
    (ran : execute (faucetStep kind) FaucetState.start actions = some state) :
    FaucetInvariant state :=
  execute_invariant (fun _ _ _ invariant _ taken => invariant.step (faucetStep_effect taken))
    FaucetInvariant.start (meets_of_forall fun _ _ _ => trivial) ran

/-- On both stores, after any steps of the routes, no five minutes hold more than
five recorded requests of a currency and an address, and a step answers a request
that there are too many exactly when it is the check of that request and five are
recorded in the five minutes up to its time. -/
theorem faucets_limited {actions : List FaucetAction}
    (ran : execute (faucetStep kind) FaucetState.start actions = some state) :
    (∀ currency address since,
      countInWindow state.faucetRequests currency address since ≤ 5) ∧
      ∀ action state', faucetStep kind state action = some state' → ∀ currency post,
        (state'.answers = state.answers ++ [(currency, post, .tooManyRequests)] ↔
          ∃ now lastRequests, action = .check currency now ∧
            state.stage currency = .fetched post lastRequests ∧
            5 ≤ countInWindow state.faucetRequests currency post.address
              (now - faucetWindow)) := by
  have invariant := FaucetInvariant.execute ran
  refine ⟨invariant.limited, ?_⟩
  intro action state' taken currency post
  have effect := faucetStep_effect taken
  constructor
  · intro answered
    obtain ⟨now, lastRequests, rfl, stage, later, full⟩ := effect.of_tooManyRequests answered
    refine ⟨now, lastRequests, rfl, stage, ?_⟩
    rw [invariant.length_requestsInWindow stage later] at full
    exact full.trans (min_le_right _ _)
  · rintro ⟨now, lastRequests, rfl, stage, full⟩
    cases effect with
    | ended _ _ notCheck => exact absurd rfl (notCheck currency now)
    | refused refusedStage =>
        rw [stage] at refusedStage
        cases refusedStage
        rfl
    | admitted admittedStage later free =>
        rw [stage] at admittedStage
        cases admittedStage
        rw [invariant.length_requestsInWindow stage later] at free
        omega

/-! ## Payments and rows -/

@[simp]
theorem stage_enter_self (stage : FaucetStage) :
    (state.enter currency stage).stage currency = stage :=
  Function.update_self _ _ _

@[simp]
theorem stage_enter_btc_stx (stage : FaucetStage) :
    (state.enter .btc stage).stage .stx = state.stage .stx :=
  rfl

@[simp]
theorem stage_enter_stx_btc (stage : FaucetStage) :
    (state.enter .stx stage).stage .btc = state.stage .btc :=
  rfl

/-- The bitcoin payment that is not recorded yet. -/
def FaucetStage.unrecorded : FaucetStage → List DbFaucetRequest
  | .paid post now => [post.request .btc now]
  | _ => []

/-- The recorded request that is not paid yet. -/
def FaucetStage.unpaid : FaucetStage → List DbFaucetRequest
  | .recorded post now => [post.request .stx now]
  | _ => []

theorem FaucetStage.unrecorded_eq_nil {stage : FaucetStage}
    (notPaid : ∀ post now, stage ≠ .paid post now) : stage.unrecorded = [] := by
  cases stage with
  | paid post now => exact absurd rfl (notPaid post now)
  | _ => rfl

/-- Every payment has a row of its own, but for a bitcoin payment under way. -/
def Covered (state : FaucetState) : Prop :=
  ∀ counted : DbFaucetRequest → Bool,
    state.broadcasts.countP counted + (state.stage .stx).unpaid.countP counted ≤
      state.faucetRequests.countP counted + (state.stage .btc).unrecorded.countP counted

/-- A route that is not after a payment goes on without a payment or a row. -/
theorem Covered.enter (covered : Covered state) {stage : FaucetStage}
    (before : (state.stage currency).unrecorded = []) (unrecorded : stage.unrecorded = [])
    (unpaid : stage.unpaid = []) : Covered (state.enter currency stage) := by
  intro counted
  have held := covered counted
  cases currency with
  | btc =>
      rw [before] at held
      rw [stage_enter_btc_stx, stage_enter_self, unrecorded]
      exact held
  | stx =>
      rw [stage_enter_stx_btc, stage_enter_self, unpaid]
      exact (Nat.le_add_right _ _).trans held

theorem Covered.step {action : FaucetAction} (covered : Covered state)
    (kept : action.KeepsRecord) (effect : FaucetEffect kind state action state') :
    Covered state' := by
  cases effect with
  | ended notPaid =>
      exact covered.enter (FaucetStage.unrecorded_eq_nil notPaid) rfl rfl
  | fetched idle => exact covered.enter (congrArg FaucetStage.unrecorded idle) rfl rfl
  | refused stage => exact covered.enter (congrArg FaucetStage.unrecorded stage) rfl rfl
  | admitted stage => exact covered.enter (congrArg FaucetStage.unrecorded stage) rfl rfl
  | built stage =>
      exact covered.enter (FaucetStage.unrecorded_eq_nil (by simp [stage])) rfl rfl
  | @paid post now txId stage =>
      intro counted
      have held := covered counted
      rw [stage] at held
      rw [stage_enter_self, stage_enter_btc_stx]
      simp only [FaucetState.enter, FaucetState.broadcast, FaucetStage.unrecorded,
        List.countP_append, List.countP_nil] at held ⊢
      omega
  | unreported _ loses => exact absurd kept loses
  | dropped => exact absurd rfl kept
  | @inserted currency outcome post now response pending _ _ =>
      intro counted
      have held := covered counted
      cases currency with
      | btc =>
          have stage : state.stage .btc = .paid post now := pending
          rw [stage] at held
          show state.broadcasts.countP counted + (state.stage .stx).unpaid.countP counted ≤
            (state.faucetRequests ++ [post.request .btc now]).countP counted + 0
          rw [List.countP_append]
          exact held
      | stx =>
          show state.broadcasts.countP counted + 0 ≤
            (state.faucetRequests ++ [post.request .stx now]).countP counted +
              (state.stage .btc).unrecorded.countP counted
          rw [List.countP_append]
          omega
  | @recorded post now stage =>
      intro counted
      have held := covered counted
      rw [stage] at held
      show state.broadcasts.countP counted + [post.request .stx now].countP counted ≤
        (state.faucetRequests ++ [post.request .stx now]).countP counted +
          (state.stage .btc).unrecorded.countP counted
      rw [List.countP_append]
      simp only [FaucetStage.unpaid, List.countP_nil] at held
      omega
  | @sent post now _ _ stage _ =>
      intro counted
      have held := covered counted
      rw [stage] at held
      show (state.broadcasts ++ [post.request .stx now]).countP counted + 0 ≤
        state.faucetRequests.countP counted + (state.stage .btc).unrecorded.countP counted
      rw [List.countP_append]
      exact held

/-- The payments of five minutes are no more than its rows and a payment under way,
which has been admitted. -/
theorem Covered.limited (covered : Covered state) (invariant : FaucetInvariant state)
    (currency : DbFaucetRequestCurrency) (address : String) (since : Int) :
    countInWindow state.broadcasts currency address since ≤ 5 := by
  have paid := covered fun row => row.isOf currency address ∧ since ≤ row.occurredAt ∧
    row.occurredAt ≤ since + faucetWindow
  have rows := invariant.limited currency address since
  cases stage : state.stage .btc with
  | @paid post now =>
      have admitted := invariant.knows .btc
      rw [stage] at admitted paid
      have limited := admitted.limited invariant.limited currency address since
      rw [countInWindow, List.countP_append] at limited
      rw [countInWindow]
      exact (Nat.le_add_right _ _).trans (paid.trans limited)
  | _ =>
      rw [stage] at paid
      exact (Nat.le_add_right _ _).trans (paid.trans rows)

/-- The payments and rows of the bitcoin route. -/
def countBtc (rows : List DbFaucetRequest) : Nat :=
  rows.countP fun row => row.currency = .btc

/-- So many bitcoin payments have no row and will not get one. -/
def Unrecorded (state : FaucetState) (payments : Nat) : Prop :=
  countBtc state.broadcasts =
    countBtc state.faucetRequests + (state.stage .btc).unrecorded.length + payments

theorem Unrecorded.enter {payments : Nat} (unrecorded : Unrecorded state payments)
    {stage : FaucetStage} (before : (state.stage currency).unrecorded = [])
    (after : stage.unrecorded = []) : Unrecorded (state.enter currency stage) payments := by
  cases currency with
  | btc =>
      rw [Unrecorded, before] at unrecorded
      rw [Unrecorded, stage_enter_self, after]
      exact unrecorded
  | stx => exact unrecorded

theorem countBtc_append_singleton (post : FaucetPost) :
    countBtc (rows ++ [post.request .btc now]) = countBtc rows + 1 :=
  List.countP_append

theorem countBtc_append_singleton_stx (post : FaucetPost) :
    countBtc (rows ++ [post.request .stx now]) = countBtc rows :=
  List.countP_append

/-- A step loses a payment exactly when it does not keep the record. -/
theorem Unrecorded.step {payments : Nat} {action : FaucetAction}
    (unrecorded : Unrecorded state payments) (effect : FaucetEffect kind state action state') :
    Unrecorded state' (payments + if action.KeepsRecord then 0 else 1) := by
  cases effect with
  | ended notPaid kept =>
      rw [if_pos kept]
      exact unrecorded.enter (FaucetStage.unrecorded_eq_nil notPaid) rfl
  | fetched idle => exact unrecorded.enter (congrArg FaucetStage.unrecorded idle) rfl
  | refused stage => exact unrecorded.enter (congrArg FaucetStage.unrecorded stage) rfl
  | admitted stage => exact unrecorded.enter (congrArg FaucetStage.unrecorded stage) rfl
  | built => exact unrecorded
  | @paid post now txId stage =>
      rw [Unrecorded, stage] at unrecorded
      have kept : (FaucetAction.payBtc (some txId) (.accepted txId)).KeepsRecord := Or.inr rfl
      rw [if_pos kept]
      show countBtc (state.broadcasts ++ [post.request .btc now]) =
        countBtc state.faucetRequests + 1 + payments
      rw [countBtc_append_singleton, unrecorded]
      simp only [FaucetStage.unrecorded, List.length_nil]
      omega
  | @unreported post now _ _ stage loses =>
      rw [Unrecorded, stage] at unrecorded
      rw [if_neg loses]
      show countBtc (state.broadcasts ++ [post.request .btc now]) =
        countBtc state.faucetRequests + 0 + (payments + 1)
      rw [countBtc_append_singleton, unrecorded]
      rfl
  | dropped stage =>
      rw [Unrecorded, stage] at unrecorded
      rw [if_neg (fun kept => kept rfl)]
      show countBtc state.broadcasts = countBtc state.faucetRequests + 0 + (payments + 1)
      rw [unrecorded]
      simp only [FaucetStage.unrecorded, List.length_singleton]
      omega
  | @inserted currency outcome post now _ pending written _ =>
      cases currency with
      | btc =>
          have stage : state.stage .btc = .paid post now := pending
          rw [Unrecorded, stage] at unrecorded
          have kept : (FaucetAction.record .btc outcome).KeepsRecord := written
          rw [if_pos kept]
          show countBtc state.broadcasts =
            countBtc (state.faucetRequests ++ [post.request .btc now]) + 0 + payments
          rw [countBtc_append_singleton, unrecorded]
          rfl
      | stx =>
          show countBtc state.broadcasts =
            countBtc (state.faucetRequests ++ [post.request .stx now]) +
              (state.stage .btc).unrecorded.length + payments
          rw [countBtc_append_singleton_stx, unrecorded]
  | @recorded post now =>
      show countBtc state.broadcasts =
        countBtc (state.faucetRequests ++ [post.request .stx now]) +
          (state.stage .btc).unrecorded.length + payments
      rw [countBtc_append_singleton_stx, unrecorded]
  | @sent post now =>
      show countBtc (state.broadcasts ++ [post.request .stx now]) =
        countBtc state.faucetRequests + (state.stage .btc).unrecorded.length + payments
      rw [countBtc_append_singleton_stx, unrecorded]

theorem Unrecorded.execute {payments : Nat} {actions : List FaucetAction}
    (unrecorded : Unrecorded state payments)
    (ran : execute (faucetStep kind) state actions = some state') :
    Unrecorded state' (payments + actions.countP fun action => ¬action.KeepsRecord) := by
  induction actions generalizing state payments with
  | nil =>
      cases ran
      exact unrecorded
  | cons action actions ih =>
      obtain ⟨next, taken, rest⟩ := execute_cons_eq_some_iff.mp ran
      have after := ih (unrecorded.step (faucetStep_effect taken)) rest
      rw [List.countP_cons]
      by_cases kept : action.KeepsRecord <;> simp only [kept] at after ⊢ <;>
        simpa [Nat.add_assoc, Nat.add_comm 1] using after

/-- When no bitcoin request is being handled, every payment has a row of its own
exactly when every step so far has kept the record, and then no five minutes hold
more than five payments of a currency and an address. -/
theorem payments_recorded_iff {actions : List FaucetAction}
    (ran : execute (faucetStep kind) FaucetState.start actions = some state) :
    (state.stage .btc = .idle →
      ((∀ request, state.broadcasts.count request ≤ state.faucetRequests.count request) ↔
        ∀ action ∈ actions, action.KeepsRecord)) ∧
      ((∀ action ∈ actions, action.KeepsRecord) → ∀ currency address since,
        countInWindow state.broadcasts currency address since ≤ 5) := by
  have covered : (∀ action ∈ actions, action.KeepsRecord) → Covered state := by
    intro kept
    apply execute_invariant (fun _ _ _ covered kept taken =>
      Covered.step covered kept (faucetStep_effect taken)) _
      (meets_of_forall fun action mem _ => kept action mem) ran
    intro counted
    exact Nat.le_refl 0
  constructor
  · intro idle
    constructor
    · intro recorded
      have counted := Unrecorded.execute (show Unrecorded FaucetState.start 0 from rfl) ran
      rw [Unrecorded, idle] at counted
      have fewer : countBtc state.broadcasts ≤ countBtc state.faucetRequests := by
        apply List.Subperm.countP_le
        exact List.subperm_ext_iff.mpr fun request _ => recorded request
      have none : (actions.countP fun action => ¬action.KeepsRecord) = 0 := by
        simp only [FaucetStage.unrecorded, List.length_nil] at counted
        omega
      rw [List.countP_eq_zero] at none
      intro action mem
      simpa using none action mem
    · intro kept request
      have fewer := covered kept (fun row => row == request)
      rw [idle] at fewer
      exact (Nat.le_add_right _ _).trans fewer
  · intro kept currency address since
    exact (covered kept).limited (FaucetInvariant.execute ran) currency address since

/-! ## Sample runs -/

/-- A request to a faucet. -/
def samplePost : FaucetPost where
  address := "mqVnk6NPRdhntvfm4hh9vvjiRkFDUuSYsH"
  ip := "127.0.0.1"

/-- A bitcoin request at the start of the clock, whose payment succeeds. -/
def sampleRequests (scanned : List DbFaucetRequest) (outcome : InsertOutcome) :
    List FaucetAction :=
  [.read .btc samplePost (some scanned), .check .btc 0, .payBtc (some "a1") (.accepted "a1"),
    .record .btc outcome]

/-- Five recorded requests. -/
def recordedRequests : List FaucetAction :=
  (List.range 5).flatMap fun before =>
    sampleRequests (List.replicate before (samplePost.request .btc 0)) .inserted

/-- A query that fails, a payment that is not prepared, one that the node refuses, one whose row
is written though the call throws, and one in which nothing fails. -/
def troubledRequests : List FaucetAction :=
  [.read .btc samplePost none,
    .read .btc samplePost (some []), .check .btc 0, .payBtc none .refused,
    .read .btc samplePost (some []), .check .btc 0, .payBtc (some "a1") .refused] ++
  sampleRequests [] .lost ++ sampleRequests [samplePost.request .btc 0] .inserted

/-- Six requests whose rows are not written. -/
def unrecordedRequests : List FaucetAction :=
  (List.range 6).flatMap fun _ => sampleRequests [] .failed

theorem execute_recordedRequests :
    ∃ state, execute (faucetStep .memory) FaucetState.start recordedRequests = some state ∧
      state.stage .btc = .idle := by
  have ran : (execute (faucetStep .memory) FaucetState.start recordedRequests).map
      (fun state => state.stage .btc) = some .idle := by
    decide +kernel
  exact Option.map_eq_some_iff.mp ran

/-- After five requests no window holds more. -/
theorem faucets_limited_recordedRequests :
    ∃ state, execute (faucetStep .memory) FaucetState.start recordedRequests = some state ∧
      ∀ currency address since,
        countInWindow state.faucetRequests currency address since ≤ 5 := by
  obtain ⟨state, ran, -⟩ := execute_recordedRequests
  exact ⟨state, ran, (faucets_limited ran).1⟩

/-- The two payments among requests that fail elsewhere are recorded; the one of a request that
fails at its row is not. -/
theorem payments_recorded_iff_troubledRequests :
    (∃ state, execute (faucetStep .memory) FaucetState.start troubledRequests = some state ∧
      state.broadcasts.length = 2 ∧
      (∀ request, state.broadcasts.count request ≤ state.faucetRequests.count request) ∧
      ∀ currency address since, countInWindow state.broadcasts currency address since ≤ 5) ∧
    ∃ state, execute (faucetStep .memory) FaucetState.start (sampleRequests [] .failed) =
        some state ∧
      ¬∀ request, state.broadcasts.count request ≤ state.faucetRequests.count request := by
  constructor
  · have ran : (execute (faucetStep .memory) FaucetState.start troubledRequests).map
        (fun state => (state.stage .btc, state.broadcasts.length)) = some (.idle, 2) := by
      decide +kernel
    obtain ⟨state, ran, same⟩ := Option.map_eq_some_iff.mp ran
    obtain ⟨idle, sent⟩ := Prod.mk.inj same
    have kept : ∀ action ∈ troubledRequests, action.KeepsRecord := by decide
    exact ⟨state, ran, sent, ((payments_recorded_iff ran).1 idle).mpr kept,
      (payments_recorded_iff ran).2 kept⟩
  · have ran : (execute (faucetStep .memory) FaucetState.start (sampleRequests [] .failed)).map
        (fun state => state.stage .btc) = some .idle := by
      decide +kernel
    obtain ⟨state, ran, idle⟩ := Option.map_eq_some_iff.mp ran
    have loses : ¬∀ action ∈ sampleRequests [] .failed, action.KeepsRecord := by decide
    exact ⟨state, ran, mt ((payments_recorded_iff ran).1 idle).mp loses⟩

/-- The store fails at every row: six payments at one time, and none is recorded. -/
theorem unrecordedRequests_paid :
    (execute (faucetStep .postgres) FaucetState.start unrecordedRequests).map
        (fun state => (state.stage .btc, state.faucetRequests,
          countInWindow state.broadcasts .btc samplePost.address 0)) =
      some (.idle, [], 6) := by
  decide +kernel

end StacksApi.Routes
