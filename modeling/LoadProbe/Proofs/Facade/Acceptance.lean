import LoadProbe.Proofs.Facade.Reply
import Mathlib

/-!
# Which replies accept a command

A play or pull command is accepted by an object that carries the status 0. A stop or stop-all
command is accepted by such an object, too, and besides by an array that lists the status 0 and a
reason (`Envelope.ofFields?_eq_some_iff`, `stopAccepted_eq_ok_iff`). `Exchange.stop_answered` says
what every JSON reply with an HTTP status of success comes to: all commands agree on the replies
that are no array, and a list of two fields is the only other reply that stops.
`Exchange.stop_accepts_list` is a reply on which they disagree.
-/

namespace LoadProbe.Facade

open Feed

/-! ## Envelopes that are listed -/

/-- The envelope of an array that lists a status and a reason, both well formed. -/
inductive Envelope.IsListedIn (e : Envelope) : Json → Prop
  | listed {status reason : Json} : HoldsInt (some status) e.status →
      HoldsText (some reason) e.reason → IsListedIn e (.arr [status, reason])

/-- The value lists an envelope with this application status. -/
def Lists (v : Json) (status : Option Int) : Prop :=
  ∃ reason, Envelope.IsListedIn ⟨status, reason⟩ v

/-- What lists an envelope is an array, which carries none. -/
theorem Lists.not_carries {v : Json} {status : Option Int} (h : Lists v status)
    (carried : Option Int) : ¬Carries v carried := by
  rintro ⟨reason', ⟨members, rfl⟩, -, -⟩
  obtain ⟨reason, h⟩ := h
  cases h

theorem not_lists_of_not_arr {v : Json} (h : ∀ items, v ≠ .arr items) (status : Option Int) :
    ¬Lists v status := by
  rintro ⟨reason, hlisted⟩
  cases hlisted with
  | listed => exact h _ rfl

/-- The two fields of an envelope are read out of an object by name, and out of an array by
position. -/
theorem Envelope.ofFields?_eq_some_iff {v : Json} {e : Envelope} :
    Envelope.ofFields? v = some e ↔ e.IsOf v ∨ e.IsListedIn v := by
  constructor
  · intro h
    unfold Envelope.ofFields? at h
    split at h
    · simp only [Option.bind_eq_bind, Option.bind_eq_some_iff] at h
      obtain ⟨code, hstatus, text, hreason, h⟩ := h
      cases h
      exact .inr ⟨optionalInt?_eq_some_iff.1 hstatus, optionalText?_eq_some_iff.1 hreason⟩
    · exact .inl (Envelope.ofObject?_eq_some_iff.1 h)
  · rintro (h | h)
    · obtain ⟨members, rfl⟩ := h.object
      exact Envelope.ofObject?_eq_some_iff.2 h
    · cases h with
      | listed hstatus hreason =>
        simp only [Envelope.ofFields?, optionalInt?_eq_some_iff.2 hstatus,
          optionalText?_eq_some_iff.2 hreason]
        rfl

/-! ## Replies to a stop command -/

/-- The application status that a reply has for a stop or stop-all command: the one that it
carries or lists, and none when it does neither. -/
inductive HasStatus (v : Json) : Option Int → Prop
  | carried {status : Option Int} : Carries v status → HasStatus v status
  | listed {status : Option Int} : Lists v status → HasStatus v status
  | missing : (∀ status, ¬Carries v status) → (∀ status, ¬Lists v status) → HasStatus v none

theorem hasStatus_zero_iff {v : Json} :
    HasStatus v (some 0) ↔ Carries v (some 0) ∨ Lists v (some 0) := by
  constructor
  · intro h
    cases h with
    | carried h => exact .inl h
    | listed h => exact .inr h
  · rintro (h | h)
    · exact .carried h
    · exact .listed h

/-- A reply has exactly one status, the one that is read. -/
theorem hasStatus_iff {v : Json} {status : Option Int} :
    HasStatus v status ↔ ((Envelope.ofFields? v).getD ⟨none, none⟩).status = status := by
  cases he : Envelope.ofFields? v with
  | some e =>
    constructor
    · intro h
      cases h with
      | carried h =>
        obtain ⟨reason, h⟩ := h
        rw [Envelope.ofFields?_eq_some_iff.2 (.inl h)] at he
        cases he
        rfl
      | listed h =>
        obtain ⟨reason, h⟩ := h
        rw [Envelope.ofFields?_eq_some_iff.2 (.inr h)] at he
        cases he
        rfl
      | missing hcarries hlists =>
        rcases Envelope.ofFields?_eq_some_iff.1 he with h | h
        · exact absurd ⟨e.reason, h⟩ (hcarries e.status)
        · exact absurd ⟨e.reason, h⟩ (hlists e.status)
    · rintro rfl
      rcases Envelope.ofFields?_eq_some_iff.1 he with h | h
      · exact .carried ⟨e.reason, h⟩
      · exact .listed ⟨e.reason, h⟩
  | none =>
    have hno : ∀ e : Envelope, ¬(e.IsOf v ∨ e.IsListedIn v) := by
      intro e h
      rw [Envelope.ofFields?_eq_some_iff.2 h] at he
      cases he
    have hcarries : ∀ status, ¬Carries v status := by
      rintro status ⟨reason, h⟩
      exact hno _ (.inl h)
    have hlists : ∀ status, ¬Lists v status := by
      rintro status ⟨reason, h⟩
      exact hno _ (.inr h)
    constructor
    · intro h
      cases h with
      | carried h => exact absurd h (hcarries _)
      | listed h => exact absurd h (hlists _)
      | missing => rfl
    · rintro rfl
      exact .missing hcarries hlists

theorem stopAccepted_of_hasStatus {v : Json} {status : Option Int} (h : HasStatus v status) :
    stopAccepted v =
      if status = some 0 then .ok () else .error (.rejected status v.print) := by
  rw [hasStatus_iff] at h
  subst h
  simp only [stopAccepted, Envelope.accepted_iff]

theorem stopAccepted_eq_ok_iff {v : Json} :
    stopAccepted v = .ok () ↔ Carries v (some 0) ∨ Lists v (some 0) := by
  rw [← hasStatus_zero_iff]
  constructor
  · intro h
    have hstatus := hasStatus_iff.2 (Eq.refl ((Envelope.ofFields? v).getD ⟨none, none⟩).status)
    rw [stopAccepted_of_hasStatus hstatus] at h
    split at h
    · rename_i hzero
      rwa [hzero] at hstatus
    · cases h
  · intro h
    exact stopAccepted_of_hasStatus h

theorem stopAccepted_eq_error_iff {v : Json} {failure : Failure} :
    stopAccepted v = .error failure ↔
      ∃ status, HasStatus v status ∧ status ≠ some 0 ∧ failure = .rejected status v.print := by
  constructor
  · intro h
    have hstatus := hasStatus_iff.2 (Eq.refl ((Envelope.ofFields? v).getD ⟨none, none⟩).status)
    rw [stopAccepted_of_hasStatus hstatus] at h
    split at h
    · cases h
    · rename_i hne
      cases h
      exact ⟨_, hstatus, hne, rfl⟩
  · rintro ⟨status, hstatus, hne, rfl⟩
    rw [stopAccepted_of_hasStatus hstatus, if_neg hne]

/-! ## Commands -/

section Read

variable {status : Nat} {body : String} {v : Json}

theorem Exchange.document_of_read (hlo : 200 ≤ status) (hhi : status ≤ 299)
    (hread : Json.read? (bodyText body) = some v) :
    (Exchange.answered status body).document = .ok v := by
  rw [Exchange.document_of_success hlo hhi, hread]

theorem Exchange.play_of_read (hlo : 200 ≤ status) (hhi : status ≤ 299)
    (hread : Json.read? (bodyText body) = some v) :
    (Exchange.answered status body).play = .ok (.ofReply v) := by
  rw [Exchange.play, Exchange.document_of_read hlo hhi hread]
  rfl

theorem Exchange.pull_of_read (hlo : 200 ≤ status) (hhi : status ≤ 299)
    (hread : Json.read? (bodyText body) = some v) :
    (Exchange.answered status body).pull = pullReturns v := by
  rw [Exchange.pull, Exchange.document_of_read hlo hhi hread]
  rfl

theorem Exchange.stop_of_read (hlo : 200 ≤ status) (hhi : status ≤ 299)
    (hread : Json.read? (bodyText body) = some v) :
    (Exchange.answered status body).stop = stopAccepted v := by
  rw [Exchange.stop, Exchange.document_of_read hlo hhi hread]
  rfl

end Read

/-- The commands that stop one run or all of them. -/
inductive Command.Stops : Command → Prop
  | stop (runId : Int) : Stops (.stop runId)
  | stopAll : Stops .stopAll

theorem Exchange.answer_of_stops {c : Command} (hc : c.Stops) (x : Exchange) :
    x.answer c = x.stop.map fun _ => .accepted := by
  cases hc <;> rfl

/-- The envelope of a reply carries the status 0 exactly when a pull goes on to its results. -/
theorem carries_zero_iff_pullReturns {v : Json} :
    Carries v (some 0) ↔
      (∃ returns, pullReturns v = .ok returns) ∨
        pullReturns v = .error (.unreadable .withoutResults) := by
  rcases Envelope.ofObject?_cases v with ⟨he, hnone⟩ | ⟨e, he, hcarries⟩
  · simp [pullReturns_of_malformed he, hnone]
  · rw [hcarries]
    rcases pullReturns_cases he with ⟨hs, h⟩ | ⟨hs, -, h⟩ | ⟨hs, results, -, h⟩
    · simp [h, hs]
    · simp [h, hs]
    · simp [h, hs]

/-- A listed envelope is none for a play or pull command. -/
theorem Lists.malformed {v : Json} {status : Option Int} (h : Lists v status) :
    PlayAnswer.ofReply v = .refused "Malformed play reply: " ∧
      pullReturns v = .error (.unreadable .malformedPull) := by
  rcases Envelope.ofObject?_cases v with ⟨he, -⟩ | ⟨e, he, hcarries⟩
  · refine ⟨?_, pullReturns_of_malformed he⟩
    simp only [PlayAnswer.ofReply, he]
  · exact absurd ((hcarries e.status).2 rfl) (h.not_carries _)

/-- What a JSON reply with an HTTP status of success means for a stop or stop-all command. It
accepts the command exactly when it carries the status 0, or lists it in an array of two; otherwise
the command is rejected with the status that the reply has, and its text. A reply carries the
status 0 exactly when a pull command goes on to its results, and whatever starts a run stops one;
so a reply that is no array accepts all commands or none. A list is malformed for play and pull. -/
theorem Exchange.stop_answered {status : Nat} {body : String} {v : Json} (hlo : 200 ≤ status)
    (hhi : status ≤ 299) (hread : Json.read? (bodyText body) = some v) {c : Command}
    (hc : c.Stops) :
    let x := Exchange.answered status body
    (x.answer c = .ok .accepted ↔ Carries v (some 0) ∨ Lists v (some 0)) ∧
    (∀ failure, x.answer c = .error failure ↔
      ∃ code, HasStatus v code ∧ code ≠ some 0 ∧ failure = .rejected code v.print) ∧
    ((∀ items, v ≠ .arr items) → (x.answer c = .ok .accepted ↔ Carries v (some 0))) ∧
    (Carries v (some 0) ↔
      (∃ returns, x.pull = .ok returns) ∨ x.pull = .error (.unreadable .withoutResults)) ∧
    (∀ id, x.play = .ok (.started id) → x.answer c = .ok .accepted) ∧
    ∀ code, Lists v code →
      x.play = .ok (.refused "Malformed play reply: ") ∧
        x.pull = .error (.unreadable .malformedPull) := by
  intro x
  have hplay : x.play = .ok (.ofReply v) := Exchange.play_of_read hlo hhi hread
  have hpull : x.pull = pullReturns v := Exchange.pull_of_read hlo hhi hread
  have hstop : x.stop = stopAccepted v := Exchange.stop_of_read hlo hhi hread
  have haccepted : x.answer c = .ok .accepted ↔ Carries v (some 0) ∨ Lists v (some 0) := by
    rw [Exchange.answer_of_stops hc, hstop, ← stopAccepted_eq_ok_iff]
    cases stopAccepted v with
    | ok u => exact ⟨fun _ => rfl, fun _ => rfl⟩
    | error e => exact ⟨nofun, nofun⟩
  refine ⟨haccepted, ?_, ?_, ?_, ?_, ?_⟩
  · intro failure
    rw [Exchange.answer_of_stops hc, hstop, ← stopAccepted_eq_error_iff]
    cases stopAccepted v with
    | ok u => exact ⟨nofun, nofun⟩
    | error e =>
      constructor <;>
      · intro h
        cases h
        rfl
  · intro hne
    rw [haccepted, or_iff_left (not_lists_of_not_arr hne _)]
  · rw [hpull]
    exact carries_zero_iff_pullReturns
  · intro id hstarted
    rw [hplay] at hstarted
    have h := PlayAnswer.ofReply_eq_started_iff.1 (Except.ok.inj hstarted)
    exact haccepted.2 (.inl h.1)
  · intro code hlists
    rw [hplay, hpull]
    exact ⟨congrArg _ hlists.malformed.1, hlists.malformed.2⟩

/-- A list with a text for its reason stops a run. -/
theorem Exchange.stop_answered_list :
    Json.read? (bodyText "[0,\"done\"]") = some (.arr [.int 0, .str "done"]) ∧
      (Exchange.answered 200 "[0,\"done\"]").answer (.stop 17) = .ok .accepted := by
  have hread : Json.read? (bodyText "[0,\"done\"]") = some (.arr [.int 0, .str "done"]) := by
    cbv
  have hsuccess : 200 ≤ 200 ∧ 200 ≤ 299 := by omega
  have hlists : Lists (.arr [.int 0, .str "done"]) (some 0) :=
    ⟨some "done", .listed (.int (by omega) (by omega)) .text⟩
  obtain ⟨haccepted, -⟩ := Exchange.stop_answered hsuccess.1 hsuccess.2 hread (.stop 17)
  exact ⟨hread, haccepted.2 (.inr hlists)⟩

/-- The reply `[0,null]` accepts every stop and stop-all command, although it is no object, carries
no status, and is malformed for a play and for a pull command. -/
theorem Exchange.stop_accepts_list :
    Json.read? (bodyText "[0,null]") = some (.arr [.int 0, .null]) ∧
      (∀ code, ¬Carries (.arr [.int 0, .null]) code) ∧
      (∀ runId, (Exchange.answered 200 "[0,null]").answer (.stop runId) = .ok .accepted) ∧
      (Exchange.answered 200 "[0,null]").answer .stopAll = .ok .accepted ∧
      (Exchange.answered 200 "[0,null]").play = .ok (.refused "Malformed play reply: ") ∧
      (Exchange.answered 200 "[0,null]").pull = .error (.unreadable .malformedPull) := by
  have hread : Json.read? (bodyText "[0,null]") = some (.arr [.int 0, .null]) := by cbv
  have hlists : Lists (.arr [.int 0, .null]) (some 0) :=
    ⟨none, .listed (.int (by omega) (by omega)) .null⟩
  have hstop : (Exchange.answered 200 "[0,null]").stop = .ok () := by
    rw [Exchange.stop_of_read (by omega) (by omega) hread]
    exact stopAccepted_eq_ok_iff.2 (.inr hlists)
  refine ⟨hread, hlists.not_carries, ?_, ?_, ?_, ?_⟩
  · intro runId
    rw [Exchange.answer_of_stops (.stop runId), hstop]
    rfl
  · rw [Exchange.answer_of_stops .stopAll, hstop]
    rfl
  · rw [Exchange.play_of_read (by omega) (by omega) hread, hlists.malformed.1]
  · rw [Exchange.pull_of_read (by omega) (by omega) hread, hlists.malformed.2]

end LoadProbe.Facade
