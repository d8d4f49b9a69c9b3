import DayuAgent.Agents.Guardrails
import DayuAgent.Memory.Admission

namespace DayuAgent

open Library InMemorySessionStore

/-- A reservation that answers binds the key to its run under the request's hash. -/
theorem reserved_binds {store : InMemorySessionStore} {reservation : RunReservation}
    (coherent : Coherent store) (request : ReserveRunRequest) (fresh : ambient.Fresh store)
    (keyed : request.idempotencyKey = some key)
    (answered : ((Operation.reserveRun request).perform ambient store).1 =
      .ok (.reservation reservation)) :
    Binds ((Operation.reserveRun request).perform ambient store).2 key reservation.run.id
      request.requestHash := by
  rw [Operation.perform, wrap_apply] at answered ⊢
  cases outcome : reserveRun request ambient store with
  | mk reply after =>
    rw [outcome] at answered
    cases reply with
    | error => cases answered
    | ok given =>
      cases answered
      cases bound : store.idempotency.get? key with
      | none => exact (reserve_first coherent request fresh keyed bound outcome).2
      | some ref =>
        obtain ⟨record, found, _⟩ := coherent.bindings.mp bound
        have binds : Binds store key ref record.requestHash := ⟨bound, record, found, rfl⟩
        obtain ⟨run, rfl, _, answer⟩ := reserve_later coherent request ambient keyed binds
        rw [answer] at outcome
        split at outcome
        · next same =>
          cases outcome
          exact same ▸ binds
        · cases outcome

/-- The run is stored with this key. -/
def InMemorySessionStore.Carries (store : InMemorySessionStore) (ref key : String) : Prop :=
  ∃ record, store.runs.get? ref = some record ∧ record.idempotencyKey = some key

/-- The run that a call is about once it has been reserved. -/
def CallPhase.subject : CallPhase → Option String
  | .accepted run => some run.id
  | .joining runId _ | .polling runId | .dozing runId | .delivered runId _ _ => some runId
  | _ => none

/-- A call that has asked for a reservation under the key is about the run of the key. -/
structure Pledged (key requestHash : String) (start : StartRequest)
    (store : InMemorySessionStore) (call : MethodCall) : Prop where
  screened : ∀ start remaining, call.phase ≠ .checkingInput start remaining
  asked : call.phase = .reserving other → other = start
  answered : call.phase = .reserving other →
    call.answer = some (.ok (.reservation reservation)) →
    Binds store key reservation.run.id requestHash
  served : call.phase.subject = some ref → Binds store key ref requestHash

theorem Pledged.mono (pledged : Pledged key requestHash start store call)
    (keeps : ∀ ref, Binds store key ref requestHash → Binds after key ref requestHash) :
    Pledged key requestHash start after call where
  screened := pledged.screened
  asked := pledged.asked
  answered reserving answered := keeps _ (pledged.answered reserving answered)
  served subject := keeps _ (pledged.served subject)

theorem Pledged.reserving (reserving : call.phase = .reserving start)
    (unanswered : call.answer = none) : Pledged key requestHash start store call where
  screened first remaining checking := by
    rw [reserving] at checking
    cases checking
  asked same := by
    rw [reserving] at same
    cases same
    rfl
  answered _ answered := by
    rw [unanswered] at answered
    cases answered
  served subject := by
    rw [reserving] at subject
    cases subject

/-- A phase that is about a run neither awaits guardrails nor a reservation. -/
theorem Pledged.about {phase : CallPhase} (subject : phase.subject = some ref)
    (binds : Binds store key ref requestHash) :
    Pledged key requestHash start store { phase, answer := none } where
  screened first remaining checking := by
    dsimp only at checking
    rw [checking] at subject
    cases subject
  asked reserving := by
    dsimp only at reserving
    rw [reserving] at subject
    cases subject
  answered _ answered := by cases answered
  served other := by
    rw [subject] at other
    cases other
    exact binds

/-- A phase that is about no run and does not lead to one. -/
theorem Pledged.aside {phase : CallPhase} (subject : phase.subject = none)
    (past : ∀ start, phase ≠ .reserving start)
    (screened : ∀ start remaining, phase ≠ .checkingInput start remaining) :
    Pledged key requestHash start store { phase, answer := none } where
  screened := screened
  asked reserving := (past _ reserving).elim
  answered reserving := (past _ reserving).elim
  served other := by
    rw [subject] at other
    cases other

namespace Supervisor

variable {supervisor changed : Supervisor} {store after : InMemorySessionStore} {act : Act}
variable {call later : MethodCall} {position : Nat} {start : StartRequest}
variable {key requestHash : String}

private theorem waitForResult_subject (runId : String) :
    (supervisor.waitForResult runId).subject = some runId := by
  unfold waitForResult
  split <;> rfl

private theorem polled_subject (runId : String) (run : AgentRun) :
    (polled runId run).subject = some runId := by
  unfold polled
  split <;> rfl

private theorem Leads.pledged (leads : supervisor.Leads call phase)
    (pledged : Pledged key requestHash start store call) :
    Pledged key requestHash start store { phase, answer := none } := by
  cases leads with
  | guarded checking => exact (pledged.screened _ _ checking).elim
  | @replayed other reservation reserving answered =>
    refine .about ?_ (pledged.answered reserving answered)
    split
    · rfl
    · exact waitForResult_subject _
  | polled polling =>
    exact .about (polled_subject _ _) (pledged.served (by rw [polling]; rfl))
  | missed polling => exact .about rfl (pledged.served (by rw [polling]; rfl))
  | joined joining => exact .about rfl (pledged.served (by rw [joining]; rfl))
  | woke dozing => exact .about rfl (pledged.served (by rw [dozing]; rfl))
  | rejected | unsignalled | emptied | gathered | reconciles | prunes =>
    exact .aside rfl (by simp) (by simp)

private theorem Resumes.pledged (resumes : supervisor.Resumes position call changed)
    (pledged : Pledged key requestHash start store call)
    (present : changed.calls[position]? = some later) :
    Pledged key requestHash start store later := by
  cases resumes with
  | settles unowned leads =>
    obtain rfl := settle_some present
    exact leads.pledged pledged
  | creates reserving answered =>
    obtain rfl := settle_some present
    refine .about ?_ (pledged.answered reserving answered)
    split <;> rfl
  | readmits | signals | drains =>
    obtain rfl := settle_some present
    exact .aside rfl (by simp) (by simp)

private theorem Acts.pledged (acts : supervisor.Acts store act after changed)
    (coherent : Coherent store)
    (keeps : ∀ ref, Binds store key ref requestHash → Binds after key ref requestHash)
    (hashed : (start.reservation supervisor.config).requestHash = requestHash)
    (keyed : start.idempotencyKey = some key)
    (found : supervisor.calls[position]? = some call)
    (pledged : Pledged key requestHash start store call)
    (present : changed.calls[position]? = some later) :
    Pledged key requestHash start after later := by
  cases acts.calls present with
  | kept read =>
    rw [found] at read
    cases read
    exact pledged.mono keeps
  | begun invoked next =>
    have bound := (List.getElem?_eq_some_iff.mp found).1
    omega
  | @answered phase operation ambient skipped taken read asks fresh effect =>
    rw [found] at read
    cases read
    refine ⟨pledged.screened, pledged.asked, ?_, fun subject => keeps _ (pledged.served subject)⟩
    intro other reservation reserving answered
    obtain rfl := pledged.asked reserving
    dsimp only at reserving
    subst reserving
    cases asks
    rw [effect, ← hashed]
    exact reserved_binds coherent _ fresh keyed (Option.some.inj answered)
  | resumed taken read resumes again unanswered same =>
    rw [found] at read
    cases read
    rw [same]
    exact resumes.pledged pledged present

end Supervisor

/-- A transcript holds a run's messages once. -/
theorem InMemorySessionStore.Ledger.pair (ledger : Ledger effects store)
    (read : store.messages.get? sessionId = some transcript) (ref : String) :
    (transcript.filter fun message => message.runId = some ref).length ≤ 2 := by
  by_cases bound : ∃ message ∈ transcript, message.runId = some ref
  · obtain ⟨message, member, own⟩ := bound
    obtain ⟨_, request, later, _, _, kept⟩ := ledger.turns (ledger.bound read member own) read
    by_cases cleared : .cleared sessionId ∈ later
    · exact (kept.1 cleared message member own).elim
    · obtain ⟨front, user, assistant, back, rfl, _, _, others⟩ := kept.2 cleared
      have none : ∀ part : List AgentMessage, part ⊆ front ++ back →
          part.filter (fun message => message.runId = some ref) = [] := by
        intro part inside
        rw [List.filter_eq_nil_iff]
        intro message member
        simpa using others message (inside member)
      rw [List.filter_append, none front (List.subset_append_left _ _), List.nil_append,
        List.filter_cons, List.filter_cons, none back (List.subset_append_right _ _)]
      split <;> split <;> simp
  · push Not at bound
    rw [List.filter_eq_nil_iff.mpr (by simpa using bound)]
    exact Nat.zero_le _

namespace Fleet

variable {fleet before after : Fleet} {worker : String} {position : Nat}
variable {request : StartRequest} {key requestHash : String}

private theorem Steps.pledged {call later : MethodCall}
    (taken : Steps before action after) (sound : before.Sound)
    (keyed : request.idempotencyKey = some key)
    (hashed : (request.reservation (before.workers worker).config).requestHash = requestHash)
    (found : (before.workers worker).calls[position]? = some call)
    (pledged : Pledged key requestHash request before.store call)
    (present : (after.workers worker).calls[position]? = some later) :
    Pledged key requestHash request after.store later := by
  obtain ⟨effects, edits⟩ := Steps.edits taken sound
  have keeps (ref : String) (binds : Binds before.store key ref requestHash) :
      Binds after.store key ref requestHash :=
    edits.invariant binds fun held edit => edit.binds held
  rcases taken.views sound worker with ⟨_, _, acts⟩ | ⟨same, _⟩
  · exact acts.pledged sound.coherent keeps hashed keyed found pledged present
  · rw [same, found] at present
    cases present
    exact pledged.mono keeps

private theorem reservation_hash (run : Run Steps (start configs) actions fleet) (worker : String)
    (request : StartRequest) : (request.reservation (fleet.workers worker).config).requestHash =
      (request.reservation (configs worker)).requestHash := by
  rw [run_config run worker]
  rfl

/-- From its reservation on, a call is about the run of its key. -/
theorem run_pledged {call later : MethodCall} (reached : Run Steps (start configs) actions before)
    (run : Run Steps before labels after) (keyed : request.idempotencyKey = some key)
    (hashed : (request.reservation (configs worker)).requestHash = requestHash)
    (found : (before.workers worker).calls[position]? = some call)
    (pledged : Pledged key requestHash request before.store call)
    (present : (after.workers worker).calls[position]? = some later) :
    Pledged key requestHash request after.store later := by
  induction run generalizing later with
  | nil =>
    rw [found] at present
    cases present
    exact pledged
  | @snoc _ middle _ final earlier taken ih =>
    have sound := run_sound reached
    have longer := run_calls_length earlier sound worker
    have bound := (List.getElem?_eq_some_iff.mp found).1
    obtain ⟨former, read⟩ : ∃ former, (middle.workers worker).calls[position]? = some former :=
      ⟨_, List.getElem?_eq_getElem (Nat.lt_of_lt_of_le bound longer)⟩
    rw [← reservation_hash (reached.append earlier) worker] at hashed
    exact Steps.pledged taken (run_keeps earlier sound).1 keyed hashed read (ih read) present

/-- The call has asked for a reservation with this request, and it is about the run by now. -/
structure Resolves (configs : String → Config) (actions : List Action) (fleet : Fleet)
    (worker : String) (position : Nat) (request : StartRequest) (ref : String) : Prop where
  asked : ∃ (state : Fleet) (call : MethodCall), Visits configs actions state ∧
    (state.workers worker).calls[position]? = some call ∧ call.phase = .reserving request ∧
    call.answer = none
  about : ∃ call : MethodCall, (fleet.workers worker).calls[position]? = some call ∧
    call.phase.subject = some ref

private theorem Resolves.binds
    (resolves : Resolves configs actions fleet worker position request ref)
    (run : Run Steps (start configs) actions fleet) (keyed : request.idempotencyKey = some key) :
    Binds fleet.store key ref (request.reservation (configs worker)).requestHash := by
  obtain ⟨state, call, visits, found, reserving, unanswered⟩ := resolves.asked
  obtain ⟨later, present, subject⟩ := resolves.about
  obtain ⟨labels, rest⟩ := visits.rest run
  obtain ⟨_, _, _, reached⟩ := visits
  exact (run_pledged reached rest keyed rfl found (.reserving reserving unanswered)
    present).served subject

/-- Requests with one idempotency key, on whichever workers and however often they are sent,
are about one run and were sent with one request hash. At most one task of all workers is ever
created for the key, and a transcript holds at most one pair of messages of the run. -/
theorem keyed_requests_execute_once (run : Run Steps (start configs) actions fleet)
    (first : Resolves configs actions fleet worker position request ref)
    (second : Resolves configs actions fleet otherWorker otherPosition again otherRef)
    (keyed : request.idempotencyKey = some key) (same : again.idempotencyKey = some key) :
    ref = otherRef ∧
    (request.reservation (configs worker)).requestHash =
      (again.reservation (configs otherWorker)).requestHash ∧
    (∀ (name otherName : String) (index otherIndex : Nat) (task other : Task),
      (fleet.workers name).tasks[index]? = some task →
      (fleet.workers otherName).tasks[otherIndex]? = some other →
      fleet.store.Carries task.run.id key → fleet.store.Carries other.run.id key →
      name = otherName ∧ index = otherIndex ∧ task.run.id = ref) ∧
    ∀ sessionId transcript, fleet.store.messages.get? sessionId = some transcript →
      (transcript.filter fun message => message.runId = some ref).length ≤ 2 := by
  have binds := first.binds run keyed
  have sound := run_sound run
  obtain ⟨bound, record, found, hashed⟩ := second.binds run same
  obtain rfl : ref = otherRef := Option.some.inj (binds.bound.symm.trans bound)
  have executes {own : String} (carries : fleet.store.Carries own key) : own = ref :=
    Option.some.inj ((sound.coherent.bindings.mpr carries).symm.trans bound)
  refine ⟨rfl, ?_, ?_, ?_⟩
  · obtain ⟨other, present, early⟩ := binds.hashed
    rw [found] at present
    cases present
    rw [← early, hashed]
  · intro name otherName index otherIndex task other read present own otherOwn
    have executing := (executes own).trans (executes otherOwn).symm
    obtain ⟨there, place⟩ := sound.sameTask read present executing
    exact ⟨there, place, executes own⟩
  · intro sessionId transcript read
    obtain ⟨effects, edits⟩ := run_edits run
    exact (edits_ledger edits).pair read ref

/-- The request of a call that awaits its reservation. -/
def asking : CallPhase → Option StartRequest
  | .reserving request => some request
  | _ => none

private theorem asking_some {phase : CallPhase} (asks : asking phase = some request) :
    phase = .reserving request := by
  unfold asking at asks
  split at asks <;> cases asks
  rfl

/-- One keyed request up to the await of its reservation. -/
def keyedRequest (worker : String) : List Action :=
  [.worker worker (.invoke (.run "level?" none none none none (some "key"))
     (.sample "request" "trace")),
   .worker worker (.resumeCall 0 approval sampleClock)]

/-- The reservation of the keyed request. -/
def keyedAnswer (worker drawn ref : String) : List Action :=
  [.worker worker (.callEffect 0 (.sample drawn ref) []),
   .worker worker (.resumeCall 0 .wake sampleClock)]

/-- A client sends its request again, to another worker. -/
def resentRequest : List Action :=
  keyedRequest "worker" ++ (keyedRequest "other" ++
    (keyedAnswer "worker" "lake" "run" ++ keyedAnswer "other" "pond" "later"))

private theorem keyedRequest_asks (worker : String) (actions : List Action)
    (reached : (follow next (start sampleConfig) actions).any (fun fleet =>
      ∃ call ∈ (fleet.workers worker).calls[0]?, call.answer.isNone ∧
        ∃ request ∈ asking call.phase, request.idempotencyKey = some "key") = true)
    (rest : List Action) : ∃ (state : Fleet) (call : MethodCall) (request : StartRequest),
      Visits sampleConfig (actions ++ rest) state ∧
      (state.workers worker).calls[0]? = some call ∧ call.phase = .reserving request ∧
      call.answer = none ∧ request.idempotencyKey = some "key" := by
  obtain ⟨state, run, call, found, unanswered, request, asks, keyed⟩ := follow_reaches reached
  exact ⟨state, call, request, ⟨actions, rest, rfl, run⟩, found, asking_some asks,
    Option.isNone_iff_eq_none.mp unanswered, keyed⟩

theorem keyed_requests_execute_once_resentRequest : ∃ fleet request again,
    Run Steps (start sampleConfig) resentRequest fleet ∧
    Resolves sampleConfig resentRequest fleet "worker" 0 request "run" ∧
    Resolves sampleConfig resentRequest fleet "other" 0 again "run" ∧
    (request.reservation (sampleConfig "worker")).requestHash =
      (again.reservation (sampleConfig "other")).requestHash := by
  obtain ⟨fleet, run, ⟨first, found, about⟩, second, present, joined⟩ : ∃ fleet,
      Run Steps (start sampleConfig) resentRequest fleet ∧
      (∃ call ∈ (fleet.workers "worker").calls[0]?, call.phase.subject = some "run") ∧
      ∃ call ∈ (fleet.workers "other").calls[0]?, call.phase.subject = some "run" :=
    follow_reaches (by decide +kernel)
  obtain ⟨state, call, request, visits, held, reserving, unanswered, keyed⟩ :=
    keyedRequest_asks "worker" (keyedRequest "worker") (by decide +kernel)
      (keyedRequest "other" ++
        (keyedAnswer "worker" "lake" "run" ++ keyedAnswer "other" "pond" "later"))
  obtain ⟨later, other, again, visited, kept, asking, open', same⟩ :=
    keyedRequest_asks "other" (keyedRequest "worker" ++ keyedRequest "other")
      (by decide +kernel)
      (keyedAnswer "worker" "lake" "run" ++ keyedAnswer "other" "pond" "later")
  rw [List.append_assoc] at visited
  have one : Resolves sampleConfig resentRequest fleet "worker" 0 request "run" :=
    ⟨⟨state, call, visits, held, reserving, unanswered⟩, first, found, about⟩
  have two : Resolves sampleConfig resentRequest fleet "other" 0 again "run" :=
    ⟨⟨later, other, visited, kept, asking, open'⟩, second, present, joined⟩
  exact ⟨fleet, request, again, run, one, two,
    (keyed_requests_execute_once run one two keyed same).2.1⟩

end Fleet

end DayuAgent
