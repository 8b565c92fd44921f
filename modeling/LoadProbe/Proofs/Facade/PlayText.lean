import LoadProbe.Proofs.Json.Reading
import LoadProbe.Proofs.Plan
import LoadProbe.Proofs.Plan.Listing

/-!
# The text of a play command

Every scenario of a plan starts its runs with one text, in which the credentials, the name of the
command and the parameters stand under different keys (`Command.nodup_play`). A reader of the text
finds each of them again, whatever characters the code, the title and the credentials have, but for
the cash: JSON has no text for what is not finite, and this is found as no number at all
(`Command.readWith?_play`). Nothing that is looked for in a plan keeps such a cash out.
-/

namespace LoadProbe

open Number

namespace Facade.Command

variable {account : Account} {params : PlayParams}

/-- The members that a play command is written with. -/
def playMembers (account : Account) (params : PlayParams) : List (String × Json) :=
  ("username", .str account.username) :: ("password", .str account.password) ::
    ("command", .str "play") :: params.members

/-- No two parts of a play command have one key. -/
theorem nodup_play (account : Account) (params : PlayParams) :
    ((playMembers account params).map Prod.fst).Nodup := by
  show ["username", "password", "command", "code", "owner", "title", "time-unit", "language",
    "start-date", "end-date", "initial-cash", "run-type", "portfolio-name", "benchmark-name"].Nodup
  decide

theorem writable_nameOrNull {depth : Nat} (name : Option String) :
    Json.Writable depth (PlayParams.nameOrNull name) := by
  cases name with
  | none => exact .null
  | some name => exact .str name

theorem contains_unsigned64 {n : Nat} (h : unsigned32.contains n = true) :
    unsigned64.contains n = true := by
  rw [Range.contains_iff] at h ⊢
  simp only [unsigned32, unsigned64] at h ⊢
  omega

/-- A play command can be read: its only numbers are dates in their words, and the cash. -/
theorem writable_play (account : Account) (hstart : unsigned32.contains params.startDate = true)
    (hlast : unsigned32.contains params.endDate = true) :
    Json.Writable Json.maxDepth ((play params).body account) := by
  have hmembers : ∀ m ∈ playMembers account params, Json.Writable 126 m.2 := by
    simp only [playMembers, PlayParams.members, List.forall_mem_cons]
    exact ⟨.str _, .str _, .str _, .str _, .str _, .str _, .str _, .str _,
      .int (.inr (contains_unsigned64 hstart)), .int (.inr (contains_unsigned64 hlast)), .float _,
      .str _, writable_nameOrNull _, writable_nameOrNull _, nofun⟩
  exact .obj hmembers

/-- The text of a play command is read as its members, each of them once and with what is found of
its value. -/
theorem readWith?_play (account : Account) (params : PlayParams)
    (hstart : unsigned32.contains params.startDate = true)
    (hlast : unsigned32.contains params.endDate = true) :
    ∃ members, Json.readWith? Literal.nearest? ((play params).text account) = some (.obj members) ∧
      (members.map Prod.fst).Nodup ∧
      members.Perm ((playMembers account params).map (Prod.map id Json.readBack)) := by
  have hnodup : ((playMembers account params ++ []).map Prod.fst).Nodup := by
    rw [List.append_nil]
    exact nodup_play account params
  have hperm := Json.readBackMembers_perm hnodup
  rw [List.append_nil] at hperm
  refine ⟨_, Json.readWith?_print (writable_play account hstart hlast), ?_, hperm⟩
  exact (hperm.map Prod.fst).nodup_iff.2 (nodup_play account params)

end Facade.Command

/-! ## The scenarios of a plan -/

namespace Plan

open Facade

variable {p : Plan} {files : Files} {directory : String} {list : List Scenario} {s : Scenario}

/-- Every scenario of a plan stands for one of its entries. -/
theorem exists_stands (h : (p.scenarios files directory).1 = .ok list) (hs : s ∈ list) :
    ∃ e ∈ p.entries, p.Stands files directory e s := by
  rw [scenarios, listFrom_fst] at h
  split at h
  · cases h
  · cases h
    obtain ⟨e, he, hlisted⟩ := List.mem_filterMap.1 hs
    exact ⟨e, he, .of_listed? hlisted⟩

/-- What a scenario sends to start a run, from the plan to the server: one object, in which the
credentials of the plan, the name of the command and the parameters of the scenario stand each under
its own key. A reader finds exactly these members, with their values. Only a cash that is not finite
is not found: there is `null` in its place. -/
theorem scenarios_play_text (p : Plan) (hdates : ∀ e ∈ p.entries, e.DatesInWords) (files : Files)
    (directory : String) (list : List Scenario)
    (hlist : (p.scenarios files directory).1 = .ok list) (s : Scenario) (hs : s ∈ list) :
    (∃ e ∈ p.entries, p.Stands files directory e s) ∧
    (∃ written, (Command.play s.params).body p.account = .obj written ∧
      (written.map Prod.fst).Nodup) ∧
    ∃ members, Json.readWith? Literal.nearest? ((Command.play s.params).text p.account) =
        some (.obj members) ∧
      (members.map Prod.fst).Nodup ∧
      members.Perm [("username", .str p.account.username), ("password", .str p.account.password),
        ("command", .str "play"), ("code", .str s.params.code), ("owner", .str s.params.owner),
        ("title", .str s.params.title), ("time-unit", .str s.params.timeUnit),
        ("language", .str s.params.language), ("start-date", .int s.params.startDate),
        ("end-date", .int s.params.endDate),
        ("initial-cash",
          if s.params.initialCash.isFinite then .float s.params.initialCash else .null),
        ("run-type", .str s.params.runType), ("portfolio-name", .str "p"),
        ("benchmark-name", .str "b")] := by
  obtain ⟨e, he, hstands⟩ := exists_stands hlist hs
  refine ⟨⟨e, he, hstands⟩, ⟨_, rfl, Command.nodup_play p.account s.params⟩, ?_⟩
  obtain ⟨code, -, hdescribes⟩ := hstands
  obtain rfl := describes_iff.1 hdescribes
  obtain ⟨members, hread, hnodup, hperm⟩ :=
    Command.readWith?_play p.account (p.scenario e code).params (hdates e he).1 (hdates e he).2
  simp only [Command.playMembers, PlayParams.members, List.map_cons, List.map_nil, Prod.map_apply,
    id, Json.readBack] at hperm
  exact ⟨members, hread, hnodup, hperm⟩

/-- A scenario with code and a title of characters that are escaped. -/
theorem scenarios_play_text_quoted :
    let loop : PlanEntry :=
      ⟨true, "a \"loop\"\n", "loop.py", 20140101, 20150101, 0.1, .day, 600000, 3, true⟩
    let p : Plan := ⟨"http://localhost", ⟨"stress\t", "\\"⟩,
      ⟨1, 2, 1.3, 1.1, 0.8, 1.5, 1.0, 2, false⟩, [loop]⟩
    let files : Files := fun path => if path = "loop.py" then some (.text "pass\r\n") else none
    let s := p.scenario loop "pass\r\n"
    (p.scenarios files "conf").1 = .ok [s] ∧
    ∃ members, Json.readWith? Literal.nearest? ((Command.play s.params).text p.account) =
        some (.obj members) ∧
      ("initial-cash", .float 0.1) ∈ members ∧ ("title", .str "a \"loop\"\n") ∈ members := by
  intro loop p files s
  have hlist : (p.scenarios files "conf").1 = .ok [s] := rfl
  obtain ⟨-, -, members, hread, -, hperm⟩ :=
    scenarios_play_text p (by decide) files "conf" [s] hlist s List.mem_cons_self
  refine ⟨hlist, members, hread, ?_, ?_⟩
  · have hfinite : (0.1 : Float).isFinite = true := by decide +kernel
    refine hperm.mem_iff.2 ?_
    simp [s, scenario, playParams, loop, hfinite]
  · refine hperm.mem_iff.2 ?_
    simp [s, scenario, playParams, loop]

/-- A plan without faults, of which the cash of a scenario is no number: what is found in the text
that starts its runs is no cash. -/
theorem scenarios_play_text_nan :
    let loop : PlanEntry :=
      ⟨true, "loop", "loop.py", 20140101, 20150101, 0.0 / 0.0, .day, 600000, 3, true⟩
    let p : Plan := ⟨"http://localhost", ⟨"stress", ""⟩,
      ⟨1, 2, 1.3, 1.1, 0.8, 1.5, 1.0, 2, false⟩, [loop]⟩
    let files : Files := fun path => if path = "loop.py" then some (.text "pass") else none
    let s := p.scenario loop "pass"
    p.Sound ∧ (∀ e ∈ p.entries, e.DatesInWords) ∧ (p.scenarios files "conf").1 = .ok [s] ∧
    ∃ members, Json.readWith? Literal.nearest? ((Command.play s.params).text p.account) =
        some (.obj members) ∧
      ("initial-cash", .null) ∈ members ∧ ∀ x, ("initial-cash", .float x) ∉ members := by
  intro loop p files s
  obtain ⟨members, hread, -, hperm⟩ :=
    Command.readWith?_play p.account s.params (by decide) (by decide)
  refine ⟨by decide +kernel, by decide, rfl, members, hread, ?_⟩
  have hcash : (Json.float (0.0 / 0.0)).readBack = .null := by
    rw [Json.readBack, if_neg (by decide +kernel)]
  simp only [Command.playMembers, PlayParams.members, List.map_cons, List.map_nil, Prod.map_apply,
    id, s, scenario, playParams, loop, hcash] at hperm
  constructor
  · exact hperm.mem_iff.2 (by simp)
  · exact fun x hx => absurd (hperm.mem_iff.1 hx) (by simp)

end Plan

end LoadProbe
