import LoadProbe.Facade.Client
import LoadProbe.Proofs.Facade.Retry
import Mathlib.Algebra.Group.Int.Defs

/-!
# What an answer comes to

Which replies have a status envelope is said here by what their fields hold (`HoldsInt`,
`HoldsText`, `Carries`), apart from the functions that read them. From it follows what a reply to a
play or a pull command comes to (`PlayAnswer.ofReply_eq_started_iff`, `pullReturns_eq_ok_iff`,
`pullReturns_eq_rejected_iff`, `pullReturns_eq_unreadable_iff`). Every other failure comes from the
exchange, whatever the command is: it was dropped, or its HTTP status means no success
(`Exchange.answer_transport_iff`, `Exchange.answer_api_iff`). A complete answer is not dropped, so
its command is not issued again (`Policy.run_of_answered`). `Exchange.answered_classified` puts this
together for every complete answer.
-/

namespace LoadProbe.Facade

open Feed

/-! ## Fields -/

/-- An optional field holds this integer of a signed word of 64 bits, or none when it is absent or
null. -/
inductive HoldsInt : Option Json → Option Int → Prop
  | absent : HoldsInt none none
  | null : HoldsInt (some .null) none
  | int {n : Int} : -2 ^ 63 ≤ n → n < 2 ^ 63 → HoldsInt (some (.int n)) (some n)

/-- An optional field holds this text, or none when it is absent or null. -/
inductive HoldsText : Option Json → Option String → Prop
  | absent : HoldsText none none
  | null : HoldsText (some .null) none
  | text {s : String} : HoldsText (some (.str s)) (some s)

theorem optionalInt?_eq_some_iff {field : Option Json} {value : Option Int} :
    optionalInt? field = some value ↔ HoldsInt field value := by
  constructor
  · intro h
    unfold optionalInt? at h
    split at h
    · cases h
      exact .absent
    · cases h
      exact .null
    · rename_i n
      split at h
      · rename_i hword
        cases h
        obtain ⟨hlo, hhi⟩ := Number.Range.contains_iff.1 hword
        simp only [Number.signed64] at hlo hhi
        exact .int (by omega) (by omega)
      · cases h
    · cases h
  · intro h
    cases h with
    | absent | null => rfl
    | @int n hlo hhi =>
      have hword : Number.signed64.contains n = true := by
        simp only [Number.Range.contains_iff, Number.signed64]
        omega
      simp only [optionalInt?, hword, if_true]

theorem optionalText?_eq_some_iff {field : Option Json} {value : Option String} :
    optionalText? field = some value ↔ HoldsText field value := by
  constructor
  · intro h
    unfold optionalText? at h
    split at h <;> cases h
    · exact .absent
    · exact .null
    · exact .text
  · intro h
    cases h <;> rfl

/-! ## Envelopes -/

/-- The envelope of an object whose fields are well formed. -/
structure Envelope.IsOf (e : Envelope) (v : Json) : Prop where
  object : ∃ members, v = .obj members
  status : HoldsInt (v.get? "status") e.status
  reason : HoldsText (v.get? "reason") e.reason

theorem Envelope.ofObject?_eq_some_iff {v : Json} {e : Envelope} :
    Envelope.ofObject? v = some e ↔ e.IsOf v := by
  constructor
  · intro h
    unfold Envelope.ofObject? at h
    split at h
    · rename_i members
      simp only [Option.bind_eq_bind, Option.bind_eq_some_iff] at h
      obtain ⟨status, hstatus, reason, hreason, h⟩ := h
      cases h
      exact ⟨⟨members, rfl⟩, optionalInt?_eq_some_iff.1 hstatus,
        optionalText?_eq_some_iff.1 hreason⟩
    · cases h
  · rintro ⟨⟨members, rfl⟩, hstatus, hreason⟩
    simp only [Envelope.ofObject?, optionalInt?_eq_some_iff.2 hstatus,
      optionalText?_eq_some_iff.2 hreason]
    rfl

/-- The value has a well formed envelope with this application status. -/
def Carries (v : Json) (status : Option Int) : Prop :=
  ∃ reason, Envelope.IsOf ⟨status, reason⟩ v

/-- A well formed envelope is read, and any other one is none. -/
theorem Envelope.ofObject?_cases (v : Json) :
    (Envelope.ofObject? v = none ∧ ∀ status, ¬Carries v status) ∨
      ∃ e, Envelope.ofObject? v = some e ∧ ∀ status, Carries v status ↔ e.status = status := by
  cases he : Envelope.ofObject? v with
  | none =>
    refine .inl ⟨rfl, ?_⟩
    rintro status ⟨reason, h⟩
    rw [Envelope.ofObject?_eq_some_iff.2 h] at he
    cases he
  | some e =>
    refine .inr ⟨e, rfl, fun status => ⟨?_, ?_⟩⟩
    · rintro ⟨reason, h⟩
      rw [Envelope.ofObject?_eq_some_iff.2 h] at he
      cases he
      rfl
    · rintro rfl
      exact ⟨e.reason, Envelope.ofObject?_eq_some_iff.1 he⟩

theorem Envelope.accepted_iff {e : Envelope} : e.accepted = true ↔ e.status = some 0 := by
  rw [Envelope.accepted, beq_iff_eq]

/-! ## Replies to a play command -/

/-- A run has started exactly when its reply accepts the command and holds an id. -/
theorem PlayAnswer.ofReply_eq_started_iff {v : Json} {id : Int} :
    PlayAnswer.ofReply v = .started id ↔
      Carries v (some 0) ∧ HoldsInt (v.get? "run-id") (some id) := by
  rw [← optionalInt?_eq_some_iff]
  unfold PlayAnswer.ofReply
  rcases Envelope.ofObject?_cases v with ⟨he, hnone⟩ | ⟨e, he, hcarries⟩
  · simp [he, hnone]
  · rw [he, hcarries, ← Envelope.accepted_iff]
    cases hid : optionalInt? (v.get? "run-id") with
    | none => simp
    | some runId => cases haccepted : e.accepted <;> cases runId <;> simp [haccepted]

/-- Every other reply is a refusal. -/
theorem PlayAnswer.refused_of_not_started {v : Json}
    (h : ∀ id, PlayAnswer.ofReply v ≠ .started id) :
    ∃ reason, PlayAnswer.ofReply v = .refused reason := by
  cases ha : PlayAnswer.ofReply v with
  | started id => exact absurd ha (h id)
  | refused reason => exact ⟨reason, rfl⟩

/-! ## Replies to a pull command -/

/-- The reply has results that are not null. -/
def HasResults (v results : Json) : Prop :=
  v.get? "results" = some results ∧ results ≠ .null

/-- A pull reply with an envelope is rejected, unless the status is 0; then it is read when it has
results. -/
theorem pullReturns_cases {v : Json} {e : Envelope} (he : Envelope.ofObject? v = some e) :
    (e.status ≠ some 0 ∧ pullReturns v = .error (.rejected e.status v.print)) ∨
      (e.status = some 0 ∧ (∀ results, ¬HasResults v results) ∧
        pullReturns v = .error (.unreadable .withoutResults)) ∨
      (e.status = some 0 ∧ ∃ results, HasResults v results ∧
        pullReturns v = .ok (.ofResults results)) := by
  unfold pullReturns pullResults HasResults
  simp only [he]
  split
  · rename_i haccepted
    refine .inr ?_
    rw [Envelope.accepted_iff] at haccepted
    split
    · rename_i hget
      exact .inl ⟨haccepted, by simp [hget], rfl⟩
    · rename_i hget
      exact .inl ⟨haccepted, by simp [hget], rfl⟩
    · rename_i results hnull hget
      exact .inr ⟨haccepted, results, ⟨hget, hnull⟩, rfl⟩
  · rename_i haccepted
    rw [Envelope.accepted_iff] at haccepted
    exact .inl ⟨haccepted, rfl⟩

/-- A reply without an envelope brings nothing. -/
theorem pullReturns_of_malformed {v : Json} (he : Envelope.ofObject? v = none) :
    pullReturns v = .error (.unreadable .malformedPull) := by
  simp only [pullReturns, pullResults, he]
  rfl

/-- There is one value at a key. -/
theorem HasResults.unique {v results results' : Json} (h : HasResults v results)
    (h' : HasResults v results') : results = results' :=
  Option.some.inj (h.1.symm.trans h'.1)

theorem pullReturns_eq_ok_iff {v : Json} {returns : Returns} :
    pullReturns v = .ok returns ↔
      Carries v (some 0) ∧ ∃ results, HasResults v results ∧ returns = .ofResults results := by
  rcases Envelope.ofObject?_cases v with ⟨he, hnone⟩ | ⟨e, he, hcarries⟩
  · simp [pullReturns_of_malformed he, hnone]
  · rw [hcarries]
    rcases pullReturns_cases he with ⟨hs, h⟩ | ⟨hs, hno, h⟩ | ⟨hs, results, hr, h⟩
    · simp [h, hs]
    · simp [h, hno]
    · rw [h]
      constructor
      · intro heq
        exact ⟨hs, results, hr, (Except.ok.inj heq).symm⟩
      · rintro ⟨-, results', hr', rfl⟩
        rw [hr.unique hr']

theorem pullReturns_eq_rejected_iff {v : Json} {status : Option Int} {reply : String} :
    pullReturns v = .error (.rejected status reply) ↔
      Carries v status ∧ status ≠ some 0 ∧ reply = v.print := by
  rcases Envelope.ofObject?_cases v with ⟨he, hnone⟩ | ⟨e, he, hcarries⟩
  · simp [pullReturns_of_malformed he, hnone]
  · rw [hcarries]
    rcases pullReturns_cases he with ⟨hs, h⟩ | ⟨hs, hno, h⟩ | ⟨hs, results, hr, h⟩
    · rw [h]
      constructor
      · intro heq
        cases heq
        exact ⟨rfl, hs, rfl⟩
      · rintro ⟨rfl, -, rfl⟩
        rfl
    · simp only [h, Except.error.injEq, reduceCtorEq, false_iff]
      rintro ⟨rfl, hne, -⟩
      exact hne hs
    · simp only [h, reduceCtorEq, false_iff]
      rintro ⟨rfl, hne, -⟩
      exact hne hs

/-- Any other reply cannot be read. -/
theorem pullReturns_eq_unreadable_iff {v : Json} :
    (∃ defect, pullReturns v = .error (.unreadable defect)) ↔
      (∀ status, ¬Carries v status) ∨
        Carries v (some 0) ∧ ∀ results, ¬HasResults v results := by
  rcases Envelope.ofObject?_cases v with ⟨he, hnone⟩ | ⟨e, he, hcarries⟩
  · exact iff_of_true ⟨_, pullReturns_of_malformed he⟩ (.inl hnone)
  · have hsome : ¬∀ status, ¬Carries v status := fun hno => hno e.status ((hcarries _).2 rfl)
    rw [hcarries]
    rcases pullReturns_cases he with ⟨hs, h⟩ | ⟨hs, hno, h⟩ | ⟨hs, results, hr, h⟩
    · simp [h, hs, hsome]
    · exact iff_of_true ⟨_, h⟩ (.inr ⟨hs, hno⟩)
    · refine iff_of_false ?_ ?_
      · rw [h]
        exact nofun
      · rintro (hno | ⟨-, hno⟩)
        · exact hsome hno
        · exact hno results hr

/-! ## Failures -/

/-- The failures that are found when a body is read. -/
inductive Failure.Found : Failure → Prop
  | rejected (status : Option Int) (reply : String) : Found (.rejected status reply)
  | unreadable (defect : ReplyDefect) : Found (.unreadable defect)

theorem Failure.not_found_transport : ¬transport.Found :=
  nofun

theorem Failure.not_found_api {status : Nat} {body : String} : ¬(api status body).Found :=
  nofun

theorem pullReturns_found {v : Json} {e : Failure} (h : pullReturns v = .error e) : e.Found := by
  rcases Envelope.ofObject?_cases v with ⟨he, -⟩ | ⟨env, he, -⟩
  · rw [pullReturns_of_malformed he] at h
    cases h
    exact .unreadable _
  · rcases pullReturns_cases he with ⟨-, hr⟩ | ⟨-, -, hr⟩ | ⟨-, results, -, hr⟩
    · rw [hr] at h
      cases h
      exact .rejected _ _
    · rw [hr] at h
      cases h
      exact .unreadable _
    · rw [hr] at h
      cases h

theorem stopAccepted_found {v : Json} {e : Failure} (h : stopAccepted v = .error e) : e.Found := by
  dsimp only [stopAccepted] at h
  split at h
  · cases h
  · cases h
    exact .rejected _ _

theorem map_eq_error_iff {α β : Type} {y : Except Failure α} {f : α → β} {e : Failure} :
    y.map f = .error e ↔ y = .error e := by
  cases y <;> simp [Except.map]

/-! ## Answers -/

namespace Exchange

variable {x : Exchange} {status : Nat} {body message : String} {e : Failure}

/-- Only a byte order mark makes a difference between a body and its text. -/
theorem bodyText_of_head? (h : body.toList.head? ≠ some '\ufeff') : bodyText body = body := by
  unfold bodyText
  split
  · rename_i hbody
    rw [hbody] at h
    exact absurd rfl h
  · rfl

theorem isSuccessStatus_iff : isSuccessStatus status = true ↔ 200 ≤ status ∧ status ≤ 299 := by
  rw [isSuccessStatus, Bool.and_eq_true, decide_eq_true_eq, decide_eq_true_eq]

theorem isSuccessStatus_eq_false_iff :
    isSuccessStatus status = false ↔ status < 200 ∨ 299 < status := by
  rw [← Bool.not_eq_true, isSuccessStatus_iff]
  omega

theorem document_of_outside (h : status < 200 ∨ 299 < status) :
    (answered status body).document = .error (.api status (bodyText body)) := by
  rw [document, isSuccessStatus_eq_false_iff.2 h]
  rfl

theorem document_of_success (hlo : 200 ≤ status) (hhi : status ≤ 299) :
    (answered status body).document =
      match Json.read? (bodyText body) with
      | some v => .ok v
      | none => .error (.unreadable .notJson) :=
  if_pos (isSuccessStatus_iff.2 ⟨hlo, hhi⟩)

/-- The connection was lost before there was anything to report. -/
inductive Dropped : Exchange → Prop
  | lost : Dropped .lost
  | broken {status : Nat} : 200 ≤ status → status ≤ 299 → Dropped (.broken status)

/-- The reply has this HTTP status, which means no success, and this is the message with it. -/
inductive Fails : Exchange → Nat → String → Prop
  | broken {status : Nat} : status < 200 ∨ 299 < status →
    Fails (.broken status) status "Unknown error"
  | answered {status : Nat} {body : String} : status < 200 ∨ 299 < status →
    Fails (.answered status body) status (bodyText body)

/-- There is no document when the exchange was dropped, when its status means no success, or when
its body is no JSON. -/
theorem document_cases (x : Exchange) :
    (x.Dropped ∧ x.document = .error .transport) ∨
    (∃ status message, x.Fails status message ∧ x.document = .error (.api status message)) ∨
    x.document = .error (.unreadable .notJson) ∨ ∃ v, x.document = .ok v := by
  cases x with
  | lost => exact .inl ⟨.lost, rfl⟩
  | broken status =>
    rw [document]
    cases hs : isSuccessStatus status with
    | true =>
      obtain ⟨hlo, hhi⟩ := isSuccessStatus_iff.1 hs
      exact .inl ⟨.broken hlo hhi, rfl⟩
    | false => exact .inr (.inl ⟨_, _, .broken (isSuccessStatus_eq_false_iff.1 hs), rfl⟩)
  | answered status body =>
    cases hs : isSuccessStatus status with
    | true =>
      obtain ⟨hlo, hhi⟩ := isSuccessStatus_iff.1 hs
      rw [document_of_success hlo hhi]
      cases Json.read? (bodyText body) with
      | none => exact .inr (.inr (.inl rfl))
      | some v => exact .inr (.inr (.inr ⟨v, rfl⟩))
    | false =>
      have houtside := isSuccessStatus_eq_false_iff.1 hs
      exact .inr (.inl ⟨_, _, .answered houtside, document_of_outside houtside⟩)

theorem document_transport_iff : x.document = .error .transport ↔ x.Dropped := by
  constructor
  · intro h
    rcases document_cases x with ⟨hdropped, -⟩ | ⟨_, _, -, hd⟩ | hd | ⟨_, hd⟩
    · exact hdropped
    all_goals
      rw [hd] at h
      cases h
  · rintro (_ | ⟨hlo, hhi⟩)
    · rfl
    · rw [document, isSuccessStatus_iff.2 ⟨hlo, hhi⟩]
      rfl

theorem document_api_iff :
    x.document = .error (.api status message) ↔ x.Fails status message := by
  constructor
  · intro h
    rcases document_cases x with ⟨-, hd⟩ | ⟨_, _, hfails, hd⟩ | hd | ⟨_, hd⟩
    all_goals
      rw [hd] at h
      cases h
    exact hfails
  · rintro (houtside | houtside)
    · rw [document, isSuccessStatus_eq_false_iff.2 houtside]
      rfl
    · exact document_of_outside houtside

/-- A failure that no reading finds comes from where the document should have come from. -/
theorem bind_eq_error_iff {α : Type} {f : Json → Except Failure α}
    (hf : ∀ {v e}, f v = .error e → e.Found) (he : ¬e.Found) :
    x.document.bind f = .error e ↔ x.document = .error e := by
  cases x.document with
  | ok v => exact iff_of_false (fun h => he (hf h)) nofun
  | error e' => simp [Except.bind]

theorem play_eq_error_iff : x.play = .error e ↔ x.document = .error e :=
  map_eq_error_iff

theorem pull_eq_error_iff (he : ¬e.Found) : x.pull = .error e ↔ x.document = .error e :=
  bind_eq_error_iff pullReturns_found he

theorem stop_eq_error_iff (he : ¬e.Found) : x.stop = .error e ↔ x.document = .error e :=
  bind_eq_error_iff stopAccepted_found he

theorem answer_eq_error_iff {c : Command} (he : ¬e.Found) :
    x.answer c = .error e ↔ x.document = .error e := by
  cases c with
  | play params => exact map_eq_error_iff.trans play_eq_error_iff
  | pull request => exact map_eq_error_iff.trans (pull_eq_error_iff he)
  | stop runId => exact map_eq_error_iff.trans (stop_eq_error_iff he)
  | stopAll => exact map_eq_error_iff.trans (stop_eq_error_iff he)

/-- Any command is lost in the transport exactly when its exchange was dropped. -/
theorem answer_transport_iff {c : Command} : x.answer c = .error .transport ↔ x.Dropped :=
  (answer_eq_error_iff Failure.not_found_transport).trans document_transport_iff

/-- Any command fails with an HTTP status exactly when the reply has this status, whether or not its
body has come. -/
theorem answer_api_iff {c : Command} :
    x.answer c = .error (.api status message) ↔ x.Fails status message :=
  (answer_eq_error_iff Failure.not_found_api).trans document_api_iff

/-- A complete answer is not dropped, so what it comes to is no failure of the transport. -/
theorem answered_not_transport {α : Type} {y : Except Failure α}
    (hy : y = .error .transport ↔ (answered status body).document = .error .transport)
    (h : y = .error e) : e.isTransport = false := by
  cases e with
  | transport =>
    rw [hy, document_transport_iff] at h
    cases h
  | api | rejected | unreadable => rfl

theorem play_not_transport (h : (answered status body).play = .error e) :
    e.isTransport = false :=
  answered_not_transport play_eq_error_iff h

theorem pull_not_transport (h : (answered status body).pull = .error e) :
    e.isTransport = false :=
  answered_not_transport (pull_eq_error_iff Failure.not_found_transport) h

end Exchange

/-- A command whose first attempt is answered makes no other one. -/
theorem Policy.run_of_answered {α : Type} {results : Nat → Except Failure α}
    (h : ∀ e, results 0 = .error e → e.isTransport = false) (p : Policy) (fuel : Nat) :
    p.run .transport results (fuel + 1) = some (.result 1 (results 0)) := by
  unfold run runFrom
  cases hr : results 0 with
  | ok v => rfl
  | error e =>
    have hafter : p.after .transport 1 e = .giveUp := by
      simp [after, RetryOn.covers, h e hr]
    simp only [hafter]

/-- What a complete answer comes to. An HTTP status that means no success is a failure with this
status and the text of the body, and so is a body that is no JSON. Any other play reply has started
a run, when it carries the status 0 and a run id, or is a refusal; any other pull reply brings its
results, when it carries the status 0 and they are there, is a rejection with the status that it
carries, when this is not 0, or cannot be read. Under any policy the command is issued once. -/
theorem Exchange.answered_classified (status : Nat) (body : String) :
    let x := Exchange.answered status body
    let text := bodyText body
    (body.toList.head? ≠ some '\ufeff' → text = body) ∧
    (status < 200 ∨ 299 < status →
      x.play = .error (.api status text) ∧ x.pull = .error (.api status text)) ∧
    (200 ≤ status → status ≤ 299 → Json.read? text = none →
      x.play = .error (.unreadable .notJson) ∧ x.pull = .error (.unreadable .notJson)) ∧
    (200 ≤ status → status ≤ 299 → ∀ v, Json.read? text = some v →
      (∀ id, x.play = .ok (.started id) ↔
        Carries v (some 0) ∧ HoldsInt (v.get? "run-id") (some id)) ∧
      ((∀ id, ¬(Carries v (some 0) ∧ HoldsInt (v.get? "run-id") (some id))) →
        ∃ reason, x.play = .ok (.refused reason)) ∧
      (∀ returns, x.pull = .ok returns ↔
        Carries v (some 0) ∧ ∃ results, HasResults v results ∧ returns = .ofResults results) ∧
      (∀ code reply, x.pull = .error (.rejected code reply) ↔
        Carries v code ∧ code ≠ some 0 ∧ reply = v.print) ∧
      ((∃ defect, x.pull = .error (.unreadable defect)) ↔
        (∀ code, ¬Carries v code) ∨ Carries v (some 0) ∧ ∀ results, ¬HasResults v results)) ∧
    (∀ e, x.play = .error e ∨ x.pull = .error e → e.isTransport = false) ∧
    ∀ (p : Policy) (fuel : Nat),
      (∀ results, results 0 = x.play →
        p.run .transport results (fuel + 1) = some (.result 1 x.play)) ∧
      (∀ results, results 0 = x.pull →
        p.run .transport results (fuel + 1) = some (.result 1 x.pull)) := by
  intro x text
  refine ⟨Exchange.bodyText_of_head?, ?_, ?_, ?_, ?_, ?_⟩
  · intro houtside
    have hdoc : x.document = .error (.api status text) := Exchange.document_of_outside houtside
    simp only [Exchange.play, Exchange.pull, hdoc]
    exact ⟨rfl, rfl⟩
  · intro hlo hhi hread
    have hdoc : x.document = .error (.unreadable .notJson) := by
      rw [Exchange.document_of_success hlo hhi, hread]
    simp only [Exchange.play, Exchange.pull, hdoc]
    exact ⟨rfl, rfl⟩
  · intro hlo hhi v hread
    have hdoc : x.document = .ok v := by
      rw [Exchange.document_of_success hlo hhi, hread]
    have hplay : x.play = .ok (.ofReply v) := by
      rw [Exchange.play, hdoc]
      rfl
    have hpull : x.pull = pullReturns v := by
      rw [Exchange.pull, hdoc]
      rfl
    simp only [hplay, hpull, Except.ok.injEq, ← PlayAnswer.ofReply_eq_started_iff]
    exact ⟨fun _ => trivial, PlayAnswer.refused_of_not_started, fun _ => pullReturns_eq_ok_iff,
      fun _ _ => pullReturns_eq_rejected_iff, pullReturns_eq_unreadable_iff⟩
  · rintro e (h | h)
    · exact Exchange.play_not_transport h
    · exact Exchange.pull_not_transport h
  · intro p fuel
    constructor
    · intro results hfirst
      rw [← hfirst]
      exact p.run_of_answered (fun e he => Exchange.play_not_transport (hfirst.symm.trans he)) fuel
    · intro results hfirst
      rw [← hfirst]
      exact p.run_of_answered (fun e he => Exchange.pull_not_transport (hfirst.symm.trans he)) fuel

end LoadProbe.Facade
