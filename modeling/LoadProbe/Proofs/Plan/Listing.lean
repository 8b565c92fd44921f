import LoadProbe.Plan.Listing
import Mathlib.Data.List.Forall2

/-!
# Which entries become scenarios

What becomes of an entry is decided by the entry itself and by what is found of its strategy: a
disabled entry is passed over, one without a strategy (`PlanEntry.Missing`) ends the listing, one
whose strategy cannot be read (`PlanEntry.Unreadable`) is left out, and every other one becomes the
scenario that the plan describes for it (`Plan.Describes`). Each step of the listing says so of the
entry in front, and the listing of a whole plan follows entry by entry (`Plan.scenarios_listed`).
-/

namespace LoadProbe

/-! ## What is found of a strategy -/

namespace PlanEntry

variable {files : Files} {directory : String} {e : PlanEntry} {code : String}

/-- What is found of the strategy of an entry: what stands at its path as given, or else at its
path as seen from the directory of the plan. -/
def found? (files : Files) (directory : String) (e : PlanEntry) : Option Content :=
  (files e.strategy).or (files (Path.within directory e.strategy))

/-- The code of an entry, when its strategy can be read. -/
def code? (files : Files) (directory : String) (e : PlanEntry) : Option String :=
  match e.found? files directory with
  | some (.text code) => some code
  | _ => none

/-- Nothing exists at either path of the strategy of an enabled entry. -/
def Missing (files : Files) (directory : String) (e : PlanEntry) : Prop :=
  e.enabled = true ∧ files e.strategy = none ∧ files (Path.within directory e.strategy) = none

/-- What exists of the strategy of an enabled entry cannot be read. -/
def Unreadable (files : Files) (directory : String) (e : PlanEntry) : Prop :=
  e.enabled = true ∧ e.found? files directory ≠ none ∧ e.code? files directory = none

/-- The strategy of an enabled entry can be read. -/
def Readable (files : Files) (directory : String) (e : PlanEntry) : Prop :=
  e.enabled = true ∧ e.code? files directory ≠ none

instance (files : Files) (directory : String) (e : PlanEntry) :
    Decidable (e.Missing files directory) :=
  inferInstanceAs (Decidable (_ ∧ _ ∧ _))

instance (files : Files) (directory : String) (e : PlanEntry) :
    Decidable (e.Unreadable files directory) :=
  inferInstanceAs (Decidable (_ ∧ _ ∧ _))

instance (files : Files) (directory : String) (e : PlanEntry) :
    Decidable (e.Readable files directory) :=
  inferInstanceAs (Decidable (_ ∧ _))

theorem found?_eq_none_iff : e.found? files directory = none ↔
    files e.strategy = none ∧ files (Path.within directory e.strategy) = none :=
  Option.or_eq_none_iff

theorem code?_eq_some_iff : e.code? files directory = some code ↔
    e.found? files directory = some (.text code) := by
  unfold code?
  split
  · next h => rw [h, Option.some.injEq, Option.some.injEq, Content.text.injEq]
  · next h => exact ⟨nofun, fun heq => absurd heq (h code)⟩

/-- The file of a strategy is the first thing that is found. -/
theorem map_locate? (files : Files) (directory : String) (e : PlanEntry) :
    (locate? files directory e.strategy).map Prod.snd = e.found? files directory := by
  unfold locate? found?
  cases files e.strategy with
  | some found => rfl
  | none => cases h : files (Path.within directory e.strategy) <;> simp [h]

theorem Missing.found? (h : e.Missing files directory) : e.found? files directory = none :=
  found?_eq_none_iff.2 h.2

theorem Unreadable.not_missing (h : e.Unreadable files directory) : ¬e.Missing files directory :=
  fun hmissing => h.2.1 hmissing.found?

theorem not_missing_of_code? (h : e.code? files directory = some code) :
    ¬e.Missing files directory := fun hmissing => by
  rw [code?_eq_some_iff, hmissing.found?] at h
  cases h

/-- An entry is disabled, or its strategy is missing, cannot be read or can be read. -/
theorem kinds (files : Files) (directory : String) (e : PlanEntry) :
    e.enabled = false ∨ e.Missing files directory ∨ e.Unreadable files directory ∨
      ∃ code, e.enabled = true ∧ e.code? files directory = some code := by
  cases henabled : e.enabled with
  | false => exact .inl rfl
  | true =>
    right
    cases hfound : e.found? files directory with
    | none => exact .inl ⟨henabled, found?_eq_none_iff.1 hfound⟩
    | some found =>
      right
      cases hcode : e.code? files directory with
      | none => exact .inl ⟨henabled, by rw [hfound]; exact Option.some_ne_none _, hcode⟩
      | some code => exact .inr ⟨code, rfl, rfl⟩

end PlanEntry

namespace Plan

variable {p : Plan} {files files' : Files} {directory : String} {e : PlanEntry} {code : String}
variable {rest : List PlanEntry}

/-! ## The entry in front -/

theorem listFrom_of_disabled (h : e.enabled = false) :
    p.listFrom files directory (e :: rest) = p.listFrom files directory rest := by
  rw [listFrom, h]
  rfl

theorem listFrom_of_missing (h : e.Missing files directory) :
    p.listFrom files directory (e :: rest) = (.error ⟨e.strategy⟩, []) := by
  have hlocate : locate? files directory e.strategy = none := by
    rw [← Option.map_eq_none_iff (f := Prod.snd), e.map_locate?]
    exact h.found?
  rw [listFrom, if_pos h.1, hlocate]

theorem listFrom_of_unreadable (h : e.Unreadable files directory) :
    (p.listFrom files directory (e :: rest)).1 = (p.listFrom files directory rest).1 := by
  obtain ⟨henabled, hfound, hcode⟩ := h
  rw [← e.map_locate?] at hfound
  rw [listFrom, if_pos henabled]
  split
  · next hlocate => rw [hlocate] at hfound; exact absurd rfl hfound
  · next code hlocate =>
    have := PlanEntry.code?_eq_some_iff.2 ((e.map_locate? files directory).symm.trans
      (congrArg (Option.map Prod.snd) hlocate))
    rw [hcode] at this
    cases this
  · rfl

theorem listFrom_of_readable (henabled : e.enabled = true)
    (hcode : e.code? files directory = some code) :
    (p.listFrom files directory (e :: rest)).1 =
      (p.listFrom files directory rest).1.map (p.scenario e code :: ·) := by
  have hfound := PlanEntry.code?_eq_some_iff.1 hcode
  rw [← e.map_locate?, Option.map_eq_some_iff] at hfound
  obtain ⟨⟨path, content⟩, hlocate, rfl⟩ := hfound
  rw [listFrom, if_pos henabled, hlocate]

/-! ## The whole plan -/

/-- The scenario that an entry stands for when this is its code. -/
structure Describes (p : Plan) (e : PlanEntry) (code : String) (s : Scenario) : Prop where
  name : s.name = e.title
  timeout : s.timeout = e.timeout
  trials : s.trials = e.trials
  grids : s.grids = e.grids
  settings : s.settings = p.settings
  code : s.params.code = code
  owner : s.params.owner = p.account.username
  title : s.params.title = e.title
  timeUnit : s.params.timeUnit = e.bar.unit
  language : s.params.language = languageOf e.strategy
  startDate : s.params.startDate = e.startDate
  endDate : s.params.endDate = e.endDate
  initialCash : s.params.initialCash = e.initialCash
  runType : s.params.runType = "backtest"
  portfolioName : s.params.portfolioName = some "p"
  benchmarkName : s.params.benchmarkName = some "b"

/-- An entry stands for one scenario. -/
theorem describes_iff {s : Scenario} : p.Describes e code s ↔ s = p.scenario e code := by
  constructor
  · intro h
    obtain ⟨name, params, timeout, trials, grids, settings⟩ := s
    cases params
    obtain ⟨hname, htimeout, htrials, hgrids, hsettings, hcode, howner, htitle, hunit, hlanguage,
      hstart, hend, hcash, hrun, hportfolio, hbenchmark⟩ := h
    simp only at *
    subst_vars
    rfl
  · rintro rfl
    constructor <;> rfl

/-- The scenario of an entry, when it has one. -/
def listed? (p : Plan) (files : Files) (directory : String) (e : PlanEntry) : Option Scenario :=
  if e.enabled then (e.code? files directory).map (p.scenario e) else none

/-- The first missing strategy ends the listing. Without one, each entry adds the scenario that it
has. -/
theorem listFrom_fst (p : Plan) (files : Files) (directory : String) (entries : List PlanEntry) :
    (p.listFrom files directory entries).1 =
      match entries.find? fun e => decide (e.Missing files directory) with
      | some e => .error ⟨e.strategy⟩
      | none => .ok (entries.filterMap (p.listed? files directory)) := by
  induction entries with
  | nil => rfl
  | cons e rest ih =>
    rcases e.kinds files directory with hdisabled | hmissing | hunreadable | ⟨code, henabled, hcode⟩
    · have hnot : ¬e.Missing files directory := fun h => by
        have := h.1
        rw [hdisabled] at this
        cases this
      have hlisted : p.listed? files directory e = none := by rw [listed?, hdisabled]; rfl
      rw [listFrom_of_disabled hdisabled, ih, List.find?_cons_of_neg (by simpa using hnot),
        List.filterMap_cons_none hlisted]
    · rw [listFrom_of_missing hmissing, List.find?_cons_of_pos (by simpa using hmissing)]
    · have hlisted : p.listed? files directory e = none := by
        rw [listed?, if_pos hunreadable.1, hunreadable.2.2]
        rfl
      rw [listFrom_of_unreadable hunreadable, ih,
        List.find?_cons_of_neg (by simpa using hunreadable.not_missing),
        List.filterMap_cons_none hlisted]
    · have hlisted : p.listed? files directory e = some (p.scenario e code) := by
        rw [listed?, if_pos henabled, hcode]
        rfl
      have hnot := PlanEntry.not_missing_of_code? hcode
      rw [listFrom_of_readable henabled hcode, ih, List.find?_cons_of_neg (by simpa using hnot),
        List.filterMap_cons_some hlisted]
      split <;> rfl

theorem listed?_eq_some_iff {s : Scenario} : p.listed? files directory e = some s ↔
    e.enabled = true ∧ ∃ code, e.code? files directory = some code ∧ p.scenario e code = s := by
  unfold listed?
  split
  · next h => rw [Option.map_eq_some_iff, and_iff_right h]
  · next h => exact ⟨nofun, fun hs => absurd hs.1 h⟩

/-- The scenario is the one of the entry, with the code that was found for it. -/
def Stands (p : Plan) (files : Files) (directory : String) (e : PlanEntry) (s : Scenario) : Prop :=
  ∃ code, e.found? files directory = some (.text code) ∧ p.Describes e code s

theorem Stands.of_listed? {s : Scenario} (h : p.listed? files directory e = some s) :
    p.Stands files directory e s := by
  obtain ⟨-, code, hcode, rfl⟩ := listed?_eq_some_iff.1 h
  exact ⟨code, PlanEntry.code?_eq_some_iff.1 hcode, describes_iff.2 rfl⟩

theorem Stands.unique {s s' : Scenario} (h : p.Stands files directory e s)
    (h' : p.Stands files directory e s') : s = s' := by
  obtain ⟨code, hfound, hs⟩ := h
  obtain ⟨code', hfound', hs'⟩ := h'
  rw [hfound, Option.some.injEq, Content.text.injEq] at hfound'
  subst hfound'
  rw [describes_iff.1 hs, describes_iff.1 hs']

/-- The entries that can be read and the scenarios of a plan stand in one order, one for one. -/
theorem forall₂_listed (p : Plan) (files : Files) (directory : String) (entries : List PlanEntry) :
    List.Forall₂ (p.Stands files directory)
      (entries.filter fun e => decide (e.Readable files directory))
      (entries.filterMap (p.listed? files directory)) := by
  induction entries with
  | nil => exact .nil
  | cons e rest ih =>
    cases hlisted : p.listed? files directory e with
    | none =>
      have hnot : ¬e.Readable files directory := by
        rintro ⟨henabled, hcode⟩
        rw [listed?, if_pos henabled, Option.map_eq_none_iff] at hlisted
        exact hcode hlisted
      rwa [List.filter_cons_of_neg (by simpa using hnot), List.filterMap_cons_none hlisted]
    | some s =>
      have hreadable : e.Readable files directory := by
        obtain ⟨henabled, code, hcode, -⟩ := listed?_eq_some_iff.1 hlisted
        exact ⟨henabled, by rw [hcode]; exact Option.some_ne_none code⟩
      rw [List.filter_cons_of_pos (by simpa using hreadable), List.filterMap_cons_some hlisted]
      exact .cons (.of_listed? hlisted) ih

/-! ## What has no influence -/

/-- A plan lists its scenarios without a look at its own list of entries. -/
theorem listFrom_withEntries (p : Plan) (files : Files) (directory : String)
    (entries others : List PlanEntry) :
    { p with entries := others }.listFrom files directory entries =
      p.listFrom files directory entries := by
  have hscenario : ∀ e code,
      { p with entries := others }.scenario e code = p.scenario e code := fun _ _ => rfl
  induction entries with
  | nil => rfl
  | cons e rest ih => simp only [listFrom, ih, hscenario]

theorem listFrom_filter_enabled (p : Plan) (files : Files) (directory : String)
    (entries : List PlanEntry) :
    p.listFrom files directory (entries.filter (·.enabled)) =
      p.listFrom files directory entries := by
  induction entries with
  | nil => rfl
  | cons e rest ih =>
    cases henabled : e.enabled with
    | false =>
      rw [List.filter_cons_of_neg (by simp [henabled]), listFrom_of_disabled henabled, ih]
    | true =>
      rw [List.filter_cons_of_pos henabled]
      simp only [listFrom, ih]

/-- Only the paths of enabled entries are looked at. -/
theorem listFrom_congr {entries : List PlanEntry}
    (h : ∀ e ∈ entries, e.enabled = true → files' e.strategy = files e.strategy ∧
      files' (Path.within directory e.strategy) = files (Path.within directory e.strategy)) :
    p.listFrom files' directory entries = p.listFrom files directory entries := by
  induction entries with
  | nil => rfl
  | cons e rest ih =>
    have hrest := ih fun e' he' => h e' (List.mem_cons_of_mem e he')
    cases henabled : e.enabled with
    | false => rw [listFrom_of_disabled henabled, listFrom_of_disabled henabled, hrest]
    | true =>
      obtain ⟨hgiven, hbeside⟩ := h e List.mem_cons_self henabled
      have hlocate : locate? files' directory e.strategy = locate? files directory e.strategy := by
        simp only [locate?, hgiven, hbeside]
      simp only [listFrom, hlocate, hrest]

/-- What cannot be read takes no scenario with it but its own. -/
theorem listFrom_filter_unreadable (p : Plan) (files : Files) (directory : String)
    (entries : List PlanEntry) :
    (p.listFrom files directory
      (entries.filter fun e => decide (¬e.Unreadable files directory))).1 =
      (p.listFrom files directory entries).1 := by
  have hmissing : ∀ e : PlanEntry, (¬e.Unreadable files directory ∧ e.Missing files directory) ↔
      e.Missing files directory := fun e =>
    and_iff_right_of_imp fun hmissing hunreadable => hunreadable.not_missing hmissing
  have hlisted : ∀ e : PlanEntry, (if ¬e.Unreadable files directory then
      p.listed? files directory e else none) = p.listed? files directory e := by
    intro e
    split
    · rfl
    · next h =>
      obtain ⟨henabled, -, hcode⟩ := not_not.1 h
      rw [listed?, if_pos henabled, hcode]
      rfl
  rw [listFrom_fst, listFrom_fst, List.find?_filter, List.filterMap_filter]
  simp only [decide_eq_true_eq, hmissing, hlisted]

/-- A plan has no scenarios exactly when the strategy of some enabled entry is missing, and the
first such entry is named. Otherwise its scenarios are those of the enabled entries that can be
read, in the order of the plan and one for each, with the code that was found and the values of the
entry. An entry that cannot be read changes nothing but that it has no scenario itself, and a
disabled one nothing at all: not the scenarios, not what is said about them, and not what is looked
up. -/
theorem scenarios_listed (p : Plan) (files : Files) (directory : String) :
    (∀ m, (p.scenarios files directory).1 = .error m ↔
      ∃ e, p.entries.find? (fun e => decide (e.Missing files directory)) = some e ∧
        m.path = e.strategy) ∧
    (∀ list, (p.scenarios files directory).1 = .ok list ↔
      (∀ e ∈ p.entries, ¬e.Missing files directory) ∧
      List.Forall₂ (p.Stands files directory)
        (p.entries.filter fun e => decide (e.Readable files directory)) list) ∧
    ({ p with
      entries := p.entries.filter fun e => decide (¬e.Unreadable files directory)
      }.scenarios files directory).1 = (p.scenarios files directory).1 ∧
    { p with entries := p.entries.filter (·.enabled) }.scenarios files directory =
      p.scenarios files directory ∧
    ∀ files' : Files, (∀ e ∈ p.entries, e.enabled = true → files' e.strategy = files e.strategy ∧
        files' (Path.within directory e.strategy) = files (Path.within directory e.strategy)) →
      p.scenarios files' directory = p.scenarios files directory := by
  have hlist := listFrom_fst p files directory p.entries
  refine ⟨fun m => ?_, fun list => ?_, ?_, ?_, fun files' h => listFrom_congr h⟩
  · rw [scenarios, hlist]
    cases p.entries.find? fun e => decide (e.Missing files directory) with
    | none => simp
    | some e =>
      obtain ⟨path⟩ := m
      simp [eq_comm]
  · rw [scenarios, hlist]
    cases hfind : p.entries.find? fun e => decide (e.Missing files directory) with
    | none =>
      have hnone : ∀ e ∈ p.entries, ¬e.Missing files directory := by
        simpa using hfind
      have hstands := p.forall₂_listed files directory p.entries
      constructor
      · intro h
        cases h
        exact ⟨hnone, hstands⟩
      · rintro ⟨-, h⟩
        have hsame : p.entries.filterMap (p.listed? files directory) = list :=
          List.right_unique_forall₂' (fun _ _ _ hs hs' => hs.unique hs') hstands h
        rw [hsame]
    | some e =>
      have hmissing : e.Missing files directory := by simpa using List.find?_some hfind
      exact ⟨nofun, fun h => absurd hmissing (h.1 e (List.mem_of_find?_eq_some hfind))⟩
  · rw [scenarios, listFrom_withEntries, listFrom_filter_unreadable]
    rfl
  · rw [scenarios, listFrom_withEntries, listFrom_filter_enabled]
    rfl

/-- A disabled entry whose strategy is missing, one whose strategy is a directory, and one whose
strategy lies beside the plan: only the last one has a scenario, whatever is at the path of the
first. A further entry whose strategy is missing ends the listing. -/
theorem scenarios_listed_mixed :
    let loop : PlanEntry :=
      ⟨true, "loop", "loop.py", 20140101, 20150101, 100000.0, .day, 600000, 3, true⟩
    let gone : PlanEntry := { loop with strategy := "gone.py" }
    let tree : PlanEntry := { loop with title := "tree", strategy := "lib" }
    let p : Plan := ⟨"http://localhost", ⟨"stress", ""⟩, ⟨1, 2, 1.3, 1.1, 0.8, 1.5, 1.0, 2, false⟩,
      [{ gone with enabled := false }, tree, loop]⟩
    let files : Files := fun path =>
      if path = "lib" then some .directory
      else if path = "conf/loop.py" then some (.text "pass") else none
    (p.scenarios files "conf").1 = .ok [p.scenario loop "pass"] ∧
    ({ p with entries := tree :: gone :: p.entries }.scenarios files "conf").1 =
      .error ⟨"gone.py"⟩ ∧
    p.scenarios (fun path => if path = "gone.py" then some .directory else files path) "conf" =
      p.scenarios files "conf" := by
  intro loop gone tree p files
  refine ⟨?_, ?_, ?_⟩
  · have hreadable : p.entries.filter (fun e => decide (e.Readable files "conf")) = [loop] := by
      rw [List.filter_cons_of_neg (by decide), List.filter_cons_of_neg (by decide),
        List.filter_cons_of_pos (by decide), List.filter_nil]
    have hstands : p.Stands files "conf" loop (p.scenario loop "pass") :=
      ⟨"pass", by decide, describes_iff.2 rfl⟩
    refine ((scenarios_listed p files "conf").2.1 _).2 ⟨by decide, ?_⟩
    rw [hreadable]
    exact .cons hstands .nil
  · have hgone : (tree :: gone :: p.entries).find? (fun e => decide (e.Missing files "conf")) =
        some gone := by
      rw [List.find?_cons_of_neg (by decide), List.find?_cons_of_pos (by decide)]
    exact ((scenarios_listed _ files "conf").1 ⟨"gone.py"⟩).2 ⟨gone, hgone, rfl⟩
  · exact (scenarios_listed p files "conf").2.2.2.2 _ (by decide)

end Plan

end LoadProbe
