import LoadProbe.Plan.Loading
import Mathlib.Order.Lattice

/-!
# What a loaded plan guarantees

Every number in a plan is read in the word of its field, so the counts of a plan and the dates of
its entries lie in their words (`Plan.inWords_of_load`, `Plan.datesInWords_of_load`). No plan is
carried out before its faults are looked for, so whatever steers the passes of a scenario is in
range: the factors are positive (`Plan.Sound.factor_pos`), and the first pass is one of at least 1
executor and does not exceed the bound (`Plan.Sound.initial_mem`).
-/

namespace LoadProbe

open Yaml Number

/-! ## Words -/

/-- The dates of an entry lie in the words of their fields. -/
def PlanEntry.DatesInWords (e : PlanEntry) : Prop :=
  unsigned32.contains e.startDate = true ∧ unsigned32.contains e.endDate = true

instance (e : PlanEntry) : Decidable e.DatesInWords :=
  inferInstanceAs (Decidable (_ ∧ _))

/-- The numbers of executors and the budget of a plan lie in the words of their fields. -/
structure Plan.InWords (p : Plan) : Prop where
  initial : signed64.contains p.written.initial = true
  upper : signed64.contains p.written.upper = true
  maxRefine : unsigned32.contains p.written.maxRefine = true

instance (p : Plan) : Decidable p.InWords :=
  decidable_of_iff (signed64.contains p.written.initial = true ∧
      signed64.contains p.written.upper = true ∧ unsigned32.contains p.written.maxRefine = true)
    ⟨fun ⟨hinitial, hupper, hbudget⟩ => ⟨hinitial, hupper, hbudget⟩,
      fun h => ⟨h.initial, h.upper, h.maxRefine⟩⟩

/-- Whatever a reading gives satisfies `P`. -/
def Yaml.Typed.Gives {α : Type} (x : Typed α) (P : α → Prop) : Prop :=
  ∀ patience q, x.run patience = some q → P q.1

namespace Yaml.Typed.Gives

variable {α β : Type} {P : α → Prop} {Q : β → Prop}

theorem pure {a : α} (h : P a) : Typed.Gives (Pure.pure a) P := by
  rintro patience q hq
  cases hq
  exact h

theorem bind {x : Typed α} {f : α → Typed β} (hx : Typed.Gives x P)
    (hf : ∀ a, P a → Typed.Gives (f a) Q) : Typed.Gives (x >>= f) Q := by
  intro patience q hq
  rw [StateT.run_bind] at hq
  obtain ⟨r, hr, hq⟩ := Option.bind_eq_some_iff.1 hq
  exact hf r.1 (hx patience r hr) r.2 q hq

theorem any (x : Typed α) : Typed.Gives x fun _ => True :=
  fun _ _ _ => trivial

theorem lift {x : Option α} (h : ∀ a, x = some a → P a) : Typed.Gives (liftM x) P := by
  intro patience q hq
  obtain ⟨a, ha, hq⟩ := Option.bind_eq_some_iff.1 hq
  cases hq
  exact h a ha

/-- A field that must be there gives what its reader gives. -/
theorem field? {fields : List (String × Node)} {name : String} {read : Node → Typed α}
    (h : ∀ n, Typed.Gives (read n) P) : Typed.Gives (Yaml.field? fields name read) P := by
  unfold Yaml.field?
  split
  · exact h _
  · rintro patience q hq
    cases hq

/-- A field that may be missing gives what its reader gives, or the default. -/
theorem fieldOr? {fields : List (String × Node)} {name : String} {default : α}
    {read : Node → Typed α} (hdefault : P default) (h : ∀ n, Typed.Gives (read n) P) :
    Typed.Gives (Yaml.fieldOr? fields name default read) P := by
  unfold Yaml.fieldOr?
  split
  · exact h _
  · exact .pure hdefault

/-- Whatever each reading of a list gives. -/
theorem mapM {γ : Type} {f : γ → Typed α} (h : ∀ c, Typed.Gives (f c) P) (cs : List γ) :
    Typed.Gives (cs.mapM f) fun as => ∀ a ∈ as, P a := by
  induction cs with
  | nil => exact .pure nofun
  | cons c cs ih =>
    rw [List.mapM_cons]
    refine .bind (h c) fun a ha => .bind ih fun as has => .pure fun a' ha' => ?_
    rcases List.mem_cons.1 ha' with rfl | hmem
    · exact ha
    · exact has a' hmem

end Yaml.Typed.Gives

theorem Yaml.contains_of_integerOf? {r : Range} {text : String} {n : Int}
    (h : integerOf? r text = some n) : r.contains n = true := by
  have hchecked {digits : Option Int} (h : (do
      let n ← digits
      if r.contains n then return n else none) = some n) : r.contains n = true := by
    obtain ⟨m, -, hm⟩ := Option.bind_eq_some_iff.1 h
    split at hm
    · cases hm
      assumption
    · cases hm
  unfold integerOf? at h
  dsimp only at h
  split at h
  · exact hchecked h
  · split at h <;> exact hchecked h
  · exact hchecked h

/-- An integer lies in the word that it is read in. -/
theorem Yaml.Typed.Gives.integer? {d : Document} {r : Range} (n : Node) :
    Typed.Gives (d.integer? r n) fun k => r.contains k = true :=
  .bind (.any _) fun _ _ => .lift fun _ => contains_of_integerOf?

theorem Plan.gives_settingsOf? (d : Document) (fields : List (String × Node)) :
    Typed.Gives (settingsOf? d fields) fun s => signed64.contains s.initial = true ∧
      signed64.contains s.upper = true ∧ unsigned32.contains s.maxRefine = true := by
  unfold settingsOf?
  refine .bind (.field? .integer?) fun initial hinitial => ?_
  refine .bind (.field? .integer?) fun upper hupper => ?_
  iterate 5 refine .bind (.any _) fun _ _ => ?_
  refine .bind (.field? .integer?) fun budget hbudget => ?_
  refine .bind (.any _) fun _ _ => .pure ⟨hinitial, hupper, ?_⟩
  rwa [Int.toNat_of_nonneg (Range.contains_iff.1 hbudget).1]

theorem Plan.gives_ofRoot? (d : Document) : Typed.Gives (ofRoot? d) InWords := by
  unfold ofRoot?
  iterate 7 refine .bind (.any _) fun _ _ => ?_
  exact .bind (gives_settingsOf? d _) fun s ⟨hinitial, hupper, hbudget⟩ =>
    .pure ⟨hinitial, hupper, hbudget⟩

theorem PlanEntry.gives_ofNode? (d : Document) (n : Node) :
    Typed.Gives (ofNode? d n) DatesInWords := by
  have hnatural : ∀ (fields : List (String × Node)) (name : String),
      Typed.Gives (do return (← Yaml.field? fields name (d.integer? unsigned32)).toNat)
        fun k => unsigned32.contains (k : Int) = true := fun fields name =>
    .bind (.field? .integer?) fun k hk => .pure <| by
      rwa [Int.toNat_of_nonneg (Range.contains_iff.1 hk).1]
  unfold ofNode?
  refine .bind (.any _) fun fields _ => ?_
  iterate 3 refine .bind (.any _) fun _ _ => ?_
  refine .bind (hnatural fields "start-date") fun start hstart => ?_
  refine .bind (hnatural fields "end-date") fun last hlast => ?_
  iterate 6 refine .bind (.any _) fun _ _ => ?_
  exact .pure ⟨hstart, hlast⟩

theorem Plan.gives_entries (d : Document) :
    Typed.Gives (ofRoot? d) fun p => ∀ e ∈ p.entries, e.DatesInWords := by
  unfold ofRoot?
  iterate 3 refine .bind (.any _) fun _ _ => ?_
  refine .bind (.fieldOr? nofun fun n => .bind (.any _) fun nodes _ =>
    .mapM (PlanEntry.gives_ofNode? d) nodes) fun entries hentries => ?_
  iterate 4 refine .bind (.any _) fun _ _ => ?_
  exact .pure hentries

/-- Whatever the readings of all documents give is so for a plan that has been loaded. -/
theorem Plan.of_load {P : Plan → Prop} (hgives : ∀ d, Typed.Gives (ofRoot? d) P) {files : Files}
    {path : String} {p : Plan} (h : load files path = .ok p) : P p := by
  unfold load at h
  split at h
  · cases h
  · split at h
    · cases h
    · rename_i hread
      obtain ⟨d, -, hd⟩ := Option.bind_eq_some_iff.1 hread
      obtain ⟨q, hq, rfl⟩ := Option.map_eq_some_iff.1 hd
      split at h
      · cases h
      · cases h
        exact hgives d _ q hq

/-- The counts of a plan that has been loaded lie in their words. -/
theorem Plan.inWords_of_load {files : Files} {path : String} {p : Plan}
    (h : load files path = .ok p) : p.InWords :=
  of_load gives_ofRoot? h

/-- So do the dates of its entries. -/
theorem Plan.datesInWords_of_load {files : Files} {path : String} {p : Plan}
    (h : load files path = .ok p) : ∀ e ∈ p.entries, e.DatesInWords :=
  of_load gives_entries h

/-! ## Faults -/

theorem PlanFault.unless_eq_nil_iff {f : PlanFault} {ok : Bool} : f.unless ok = [] ↔ ok = true := by
  cases ok <;> simp [PlanFault.unless]

theorem Factor.mem_all (f : Factor) : f ∈ Factor.all := by
  cases f <;> decide

namespace Plan.Sound

variable {p : Plan}

theorem settingsFaults_eq_nil (h : p.Sound) : settingsFaults p.written = [] := by
  simp only [Sound, faults, List.append_eq_nil_iff] at h
  exact h.1.2

/-- Every factor is positive. Nothing is said about the side of 1 that it lies on. -/
theorem factor_pos (h : p.Sound) (f : Factor) : 0.0 < f.value p.settings := by
  have hfaults := h.settingsFaults_eq_nil
  simp only [settingsFaults, List.append_eq_nil_iff, List.flatMap_eq_nil_iff,
    PlanFault.unless_eq_nil_iff, decide_eq_true_eq] at hfaults
  have hwritten := hfaults.1.1.1.1 f f.mem_all
  cases f <;> exact hwritten

/-- The share that is required is positive. -/
theorem success_pos (h : p.Sound) : 0.0 < p.settings.success := by
  have hfaults := h.settingsFaults_eq_nil
  simp only [settingsFaults, List.append_eq_nil_iff, PlanFault.unless_eq_nil_iff,
    Bool.and_eq_true, decide_eq_true_eq] at hfaults
  exact hfaults.1.1.2.1

/-- The first pass has at least 1 executor, and no more than the bound. -/
theorem initial_mem (h : p.Sound) :
    1 ≤ p.settings.initial ∧ p.settings.initial ≤ p.settings.upper := by
  have hfaults := h.settingsFaults_eq_nil
  simp only [settingsFaults, List.append_eq_nil_iff, PlanFault.unless_eq_nil_iff,
    decide_eq_true_eq] at hfaults
  exact ⟨le_min hfaults.2 hfaults.1.2, min_le_right _ _⟩

end Plan.Sound

end LoadProbe
