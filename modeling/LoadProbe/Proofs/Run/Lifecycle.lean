import LoadProbe.Run.Lifecycle

/-!
# Which texts end a run

Two exits are known by their whole texts, and every text with the mark of exits in it ends the run
somehow (`Lifecycle.terminal?_ofText_eq_none`). Whatever a text means, it is kept
(`Lifecycle.text_ofText`), so that a run is reported in the words of the server
(`Lifecycle.ofText_classified`).
-/

namespace LoadProbe

/-- A word occurs in a text when it is a part of it, in one piece. -/
theorem occursIn_eq_true_iff {word text : List Char} :
    occursIn word text = true ↔ word <:+: text := by
  induction text with
  | nil => rw [occursIn, List.isEmpty_iff, List.infix_nil]
  | cons c rest ih =>
    rw [occursIn, Bool.or_eq_true, List.isPrefixOf_iff_prefix, ih, List.infix_cons_iff]

namespace Lifecycle

variable {text : String}

/-- The text has the mark of exits in it. -/
def MarksExit (text : String) : Prop :=
  occursIn exitMark text.toList = true

instance (text : String) : Decidable (MarksExit text) :=
  inferInstanceAs (Decidable (_ = true))

/-- A run is alive as long as its text has no mark of exits. -/
theorem terminal?_ofText_eq_none : (ofText text).terminal? = none ↔ ¬MarksExit text := by
  unfold MarksExit
  fun_cases ofText text with
  | case1 | case2 | case3 =>
    subst text
    decide
  | case4 _ _ _ hmark => simp [terminal?, hmark]
  | case5 _ _ _ hmark => simp [terminal?, hmark]

theorem terminal?_ofText_eq_success :
    (ofText text).terminal? = some .success ↔ text = "NormalExit" := by
  fun_cases ofText text with
  | case1 | case2 | case3 =>
    subst text
    decide
  | case4 hne | case5 hne => simp [terminal?, hne]

theorem terminal?_ofText_eq_canceled :
    (ofText text).terminal? = some .canceled ↔ text = "CancelExit" := by
  fun_cases ofText text with
  | case1 | case2 | case3 =>
    subst text
    decide
  | case4 _ hne | case5 _ hne => simp [terminal?, hne]

/-- To have the mark of exits is to have `Exit` in it anywhere, in this spelling. -/
theorem marksExit_iff : MarksExit text ↔ "Exit".toList <:+: text.toList :=
  occursIn_eq_true_iff

/-- An error is every other end. -/
theorem terminal?_ofText_eq_error :
    (ofText text).terminal? = some .error ↔
      MarksExit text ∧ text ≠ "NormalExit" ∧ text ≠ "CancelExit" := by
  have hmark : MarksExit text ↔ (ofText text).terminal? ≠ none := by
    rw [Ne, terminal?_ofText_eq_none, Decidable.not_not]
  simp only [hmark, ne_eq, ← terminal?_ofText_eq_success, ← terminal?_ofText_eq_canceled]
  cases (ofText text).terminal? with
  | none => simp
  | some status => cases status <;> simp

/-- No lifecycle loses its text. -/
theorem text_ofText (text : String) : (ofText text).text = text := by
  fun_cases ofText text with
  | case1 | case2 | case3 =>
    subst text
    rfl
  | case4 | case5 => rfl

/-- A reported text is kept as it is. The run is alive as long as `Exit` stands nowhere in the text.
It ended well or was canceled by exactly one text each, and every other text with `Exit` in it is
an error, also one with a known exit in it. -/
theorem ofText_classified (text : String) :
    (ofText text).text = text ∧
    ((ofText text).terminal? = none ↔ ¬"Exit".toList <:+: text.toList) ∧
    ((ofText text).terminal? = some .success ↔ text = "NormalExit") ∧
    ((ofText text).terminal? = some .canceled ↔ text = "CancelExit") ∧
    ((ofText text).terminal? = some .error ↔
      "Exit".toList <:+: text.toList ∧ text ≠ "NormalExit" ∧ text ≠ "CancelExit") := by
  rw [← marksExit_iff]
  exact ⟨text_ofText text, terminal?_ofText_eq_none, terminal?_ofText_eq_success,
    terminal?_ofText_eq_canceled, terminal?_ofText_eq_error⟩

example : (ofText "NormalExit ").terminal? = some .error ∧ (ofText "exited").terminal? = none := by
  decide

end Lifecycle

end LoadProbe
