import LoadProbe.Proofs.Json.Numerals
import Mathlib.Data.List.Nodup

/-!
# What is written is read back

A reader that takes the nearest double finds in the text of a value the value itself, but for what
JSON has no text for: a double that is not finite is written `null`, and the members of an object
are a set, of which each key has one (`readBack`). It has to be possible to read the value at all:
its integers lie in the words, and it is nested no deeper than the reader goes (`Writable`).
`Writable.readsBack` says this of a text that goes on behind the value, by induction on the value.
The fuel of the reader is twice the length of the text: no step is taken twice at one character.
-/

namespace LoadProbe.Json

open Number

variable {rest : List Char} {c : Char} {fuel depth : Nat} {x : Float}

/-! ## The first character -/

theorem skipBlanks_of_not_blank (hc : isBlank c = false) (rest : List Char) :
    skipBlanks (c :: rest) = c :: rest :=
  List.dropWhile_cons_of_neg (by rw [hc]; exact Bool.false_ne_true)

/-- A character that a value begins with is no blank. -/
theorem skipBlanks_cons (hc : Kind.ofFirst? c ≠ none) (rest : List Char) :
    skipBlanks (c :: rest) = c :: rest := by
  refine skipBlanks_of_not_blank ?_ rest
  rw [isBlank]
  simp only [Bool.or_eq_false_iff, decide_eq_false_iff_not]
  refine ⟨⟨⟨?_, ?_⟩, ?_⟩, ?_⟩ <;> (rintro rfl; exact hc (by decide))

theorem ofFirst?_signText {negative : Bool} (hc : c.isDigit = true) :
    ∃ d cs, signText negative ++ c :: rest = d :: cs ∧ Kind.ofFirst? d = some .number := by
  cases negative with
  | false => exact ⟨c, rest, rfl, Kind.ofFirst?_digit hc⟩
  | true => exact ⟨'-', c :: rest, rfl, by decide⟩

/-- The text of a finite double begins like a number. -/
theorem render_first (hx : x.isFinite = true) :
    ∃ c cs, (numberLayout.render x).toList = c :: cs ∧ Kind.ofFirst? c = some .number := by
  obtain ⟨n, hn, htext, -⟩ := exists_numeral hx
  obtain ⟨c, cs, hfirst, hc⟩ := hn.exists_first
  rw [htext, hfirst]
  exact ofFirst?_signText hc

/-- What is not finite is written `null`. -/
theorem render_of_not_finite (hx : x.isFinite = false) : numberLayout.render x = "null" := by
  have hfinite : (exact x).isFinite = false := hx
  unfold Layout.render
  generalize exact x = u at hfinite
  cases u with
  | notANumber => rfl
  | infinity s => cases s <;> rfl
  | zero s | finite s m e h => cases hfinite

/-- The text of every value begins like that of some value. -/
theorem print_first (v : Json) : ∃ c cs, v.print.toList = c :: cs ∧ Kind.ofFirst? c ≠ none := by
  cases v with
  | float x =>
    rw [print]
    cases hx : x.isFinite with
    | true =>
      obtain ⟨c, cs, hfirst, hkind⟩ := render_first hx
      exact ⟨c, cs, hfirst, hkind.trans_ne (Option.some_ne_none _)⟩
    | false =>
      rw [render_of_not_finite hx]
      exact ⟨_, _, rfl, by decide⟩
  | null => exact ⟨_, _, rfl, by decide⟩
  | bool b => cases b <;> exact ⟨_, _, rfl, by decide⟩
  | int n =>
    obtain ⟨c, cs, hfirst, hkind⟩ := (Exact.int n).exists_first
    exact ⟨c, cs, hfirst, hkind.trans_ne (Option.some_ne_none _)⟩
  | str s =>
    obtain ⟨c, cs, hfirst, hkind⟩ := (Exact.str s).exists_first
    exact ⟨c, cs, hfirst, hkind.trans_ne (Option.some_ne_none _)⟩
  | arr items => exact ⟨_, _, (List.append_nil _).symm.trans (toList_print_arr _ []), by decide⟩
  | obj members => exact ⟨_, _, (List.append_nil _).symm.trans (toList_print_obj _ []), by decide⟩

/-! ## What is found again -/

mutual

/-- The value that the text of a value is read as. -/
def readBack : Json → Json
  | .null => .null
  | .bool b => .bool b
  | .int n => .int n
  | .float x => if x.isFinite then .float x else .null
  | .str s => .str s
  | .arr items => .arr (readBackItems items)
  | .obj members => .obj (readBackMembers [] members)

/-- The items that the texts of items are read as. -/
def readBackItems : List Json → List Json
  | [] => []
  | v :: rest => readBack v :: readBackItems rest

/-- The members that the texts of members are read as, added to those before them. -/
def readBackMembers (before : List (String × Json)) :
    List (String × Json) → List (String × Json)
  | [] => before
  | (k, v) :: rest => readBackMembers (insertMember k (readBack v) before) rest

end

/-- The integers of the value lie in the words, and it is nested at most so deep. -/
inductive Writable : Nat → Json → Prop where
  | null {depth : Nat} : Writable depth .null
  | bool {depth : Nat} (b : Bool) : Writable depth (.bool b)
  | int {depth : Nat} {n : Int} (h : signed64.contains n = true ∨ unsigned64.contains n = true) :
    Writable depth (.int n)
  | float {depth : Nat} (x : Float) : Writable depth (.float x)
  | str {depth : Nat} (s : String) : Writable depth (.str s)
  | arr {depth : Nat} {items : List Json} (h : ∀ v ∈ items, Writable depth v) :
    Writable (depth + 1) (.arr items)
  | obj {depth : Nat} {members : List (String × Json)} (h : ∀ m ∈ members, Writable depth m.2) :
    Writable (depth + 1) (.obj members)

/-- The value is read back with so much nesting left, whatever follows it. -/
def ReadsBack (depth : Nat) (v : Json) : Prop :=
  ∀ (fuel : Nat) (rest : List Char), 2 * (v.print.toList ++ rest).length ≤ fuel → Ends rest →
    value? Literal.nearest? fuel depth (v.print.toList ++ rest) = some (v.readBack, rest)

theorem ends_cons (hc : c.isDigit = false ∧ c ≠ '.' ∧ c ≠ 'e' ∧ c ≠ 'E') (rest : List Char) :
    Ends (c :: rest) := by
  obtain ⟨hdigit, hpoint, he, hE⟩ := hc
  refine ⟨noDigit_cons hdigit rest, ?_, ?_, ?_⟩ <;> simpa

/-- What begins like a number is read as one. -/
theorem value?_number {decimal? : Literal → Option Float}
    (hc : Kind.ofFirst? c = some .number) (rest : List Char) :
    value? decimal? (fuel + 1) depth (c :: rest) = number? decimal? (c :: rest) := by
  have hne : ∀ d : Char, Kind.ofFirst? d ≠ some .number → c ≠ d := by
    rintro d hd rfl
    exact hd hc
  rw [value?.eq_2, skipBlanks_cons (hc.trans_ne (Option.some_ne_none _))]
  split
  case h_7 => rfl
  all_goals
    rename_i h
    exact absurd (List.cons.inj h).1 (hne _ (by decide))

theorem exists_fuel {cs : List Char} (h : 2 * (c :: cs).length ≤ fuel) :
    ∃ more, fuel = more + 1 ∧ 2 * cs.length + 1 ≤ more := by
  rw [List.length_cons] at h
  exact ⟨fuel - 1, by omega, by omega⟩

namespace ReadsBack

theorem null : ReadsBack depth .null := by
  intro fuel rest hfuel _
  obtain ⟨more, rfl, -⟩ := exists_fuel hfuel
  rfl

theorem bool (b : Bool) : ReadsBack depth (.bool b) := by
  intro fuel rest hfuel _
  cases b
  · obtain ⟨more, rfl, -⟩ := exists_fuel hfuel
    rfl
  · obtain ⟨more, rfl, -⟩ := exists_fuel hfuel
    rfl

theorem int {n : Int} (h : signed64.contains n = true ∨ unsigned64.contains n = true) :
    ReadsBack depth (.int n) := by
  intro fuel rest hfuel hrest
  obtain ⟨c, cs, hfirst, hkind⟩ := (Exact.int n).exists_first
  rw [hfirst, List.cons_append] at hfuel
  obtain ⟨more, rfl, -⟩ := exists_fuel hfuel
  rw [hfirst, List.cons_append, value?_number hkind, ← List.cons_append, ← hfirst]
  exact number?_repr h hrest

theorem float (x : Float) : ReadsBack depth (.float x) := by
  intro fuel rest hfuel hrest
  rw [print] at hfuel ⊢
  rw [readBack]
  cases hx : x.isFinite with
  | true =>
    obtain ⟨c, cs, hfirst, hkind⟩ := render_first hx
    rw [hfirst, List.cons_append] at hfuel
    obtain ⟨more, rfl, -⟩ := exists_fuel hfuel
    rw [hfirst, List.cons_append, value?_number hkind, ← List.cons_append, ← hfirst]
    exact number?_render hx hrest
  | false =>
    rw [render_of_not_finite hx] at hfuel ⊢
    obtain ⟨more, rfl, -⟩ := exists_fuel hfuel
    rfl

theorem str (s : String) : ReadsBack depth (.str s) := by
  intro fuel rest hfuel _
  rw [print, toList_quote] at hfuel ⊢
  obtain ⟨more, rfl, -⟩ := exists_fuel hfuel
  rw [value?.eq_2, skipBlanks_cons (by decide)]
  simp only [stringBody_quoted, Option.bind_eq_bind, Option.bind_some, String.ofList_toList]
  rfl

end ReadsBack

/-! ## Items and members -/

/-- What stands behind an item or a member ends its value. -/
theorem ends_behind {close : Char}
    (hclose : close.isDigit = false ∧ close ≠ '.' ∧ close ≠ 'e' ∧ close ≠ 'E')
    (texts : List String) : Ends (behind close rest texts) := by
  cases texts with
  | nil => exact ends_cons hclose rest
  | cons s texts => exact ends_cons (by decide) _

/-- Items are read one after the other, the closing bracket included. -/
theorem items?_behind {v : Json} {items : List Json} (hv : ReadsBack depth v)
    (hitems : ∀ w ∈ items, ReadsBack depth w)
    (hfuel : 2 * (v.print.toList ++ behind ']' rest (items.map print)).length + 1 ≤ fuel) :
    items? Literal.nearest? fuel depth (v.print.toList ++ behind ']' rest (items.map print)) =
      some (v.readBack :: readBackItems items, rest) := by
  obtain ⟨more, rfl⟩ : ∃ more, fuel = more + 1 := ⟨fuel - 1, by omega⟩
  induction items generalizing v more with
  | nil =>
    have hread := hv more (behind ']' rest []) (Nat.le_of_succ_le_succ hfuel)
      (ends_behind (by decide) [])
    rw [items?, List.map_nil, hread]
    rfl
  | cons w items ih =>
    have hread := hv more (behind ']' rest ((w :: items).map print)) (Nat.le_of_succ_le_succ hfuel)
      (ends_behind (by decide) _)
    rw [List.map_cons, behind, List.length_append, List.length_cons] at hfuel
    obtain ⟨less, rfl⟩ : ∃ less, more = less + 1 := ⟨more - 1, by omega⟩
    have hothers := ih (hitems w List.mem_cons_self)
      (fun w' hw' => hitems w' (List.mem_cons_of_mem _ hw')) less (by omega)
    rw [items?, hread]
    simp only [List.map_cons, behind, Option.bind_eq_bind, Option.bind_some,
      skipBlanks_of_not_blank (show isBlank ',' = false by decide), hothers, readBackItems]
    rfl

theorem toList_memberText (m : String × Json) (rest : List Char) : (memberText m).toList ++ rest =
    '"' :: (m.1.toList.flatMap escapeChar ++ '"' :: ':' :: (m.2.print.toList ++ rest)) := by
  rw [memberText, String.toList_append, String.toList_append, List.append_assoc,
    List.append_assoc, toList_quote]
  rfl

/-- A member is read up to the end of its value. -/
theorem members?_member {m : String × Json} (hm : ReadsBack depth m.2) (hrest : Ends rest)
    (hfuel : 2 * ((memberText m).toList ++ rest).length ≤ fuel) (before : List (String × Json)) :
    members? Literal.nearest? (fuel + 1) depth before ((memberText m).toList ++ rest) =
      match skipBlanks rest with
      | ',' :: rest =>
        members? Literal.nearest? fuel depth (insertMember m.1 m.2.readBack before) rest
      | '\x7d' :: rest => some (insertMember m.1 m.2.readBack before, rest)
      | _ => none := by
  rw [toList_memberText] at hfuel ⊢
  have hread := hm fuel rest (by
    simp only [List.length_cons, List.length_append] at hfuel ⊢
    omega) hrest
  rw [members?, skipBlanks_of_not_blank (by decide)]
  simp only [stringBody_quoted, Option.bind_eq_bind, Option.bind_some, String.ofList_toList,
    skipBlanks_of_not_blank (show isBlank ':' = false by decide), hread]
  rfl

/-- Members are read one after the other, the closing brace included. -/
theorem members?_behind {m : String × Json} {members : List (String × Json)}
    (hm : ReadsBack depth m.2) (hmembers : ∀ m' ∈ members, ReadsBack depth m'.2)
    (hfuel : 2 * ((memberText m).toList ++ behind '\x7d' rest (members.map memberText)).length + 1 ≤
      fuel) (before : List (String × Json)) :
    members? Literal.nearest? fuel depth before
        ((memberText m).toList ++ behind '\x7d' rest (members.map memberText)) =
      some (readBackMembers before (m :: members), rest) := by
  obtain ⟨more, rfl⟩ : ∃ more, fuel = more + 1 := ⟨fuel - 1, by omega⟩
  induction members generalizing m more before with
  | nil =>
    rw [members?_member hm (ends_behind (by decide) _) (Nat.le_of_succ_le_succ hfuel)]
    rfl
  | cons m' members ih =>
    rw [members?_member hm (ends_behind (by decide) _) (Nat.le_of_succ_le_succ hfuel)]
    rw [List.map_cons, behind, List.length_append, List.length_cons] at hfuel
    obtain ⟨less, rfl⟩ : ∃ less, more = less + 1 := ⟨more - 1, by omega⟩
    have hothers := ih (hmembers m' List.mem_cons_self)
      (fun m'' hm'' => hmembers m'' (List.mem_cons_of_mem _ hm''))
      (insertMember m.1 m.2.readBack before) less (by omega)
    simp only [List.map_cons, behind, skipBlanks_of_not_blank (show isBlank ',' = false by decide),
      hothers]
    rfl

namespace ReadsBack

theorem arr {items : List Json} (h : ∀ v ∈ items, ReadsBack depth v) :
    ReadsBack (depth + 1) (.arr items) := by
  intro fuel rest hfuel _
  rw [toList_print_arr] at hfuel ⊢
  obtain ⟨more, rfl, hmore⟩ := exists_fuel hfuel
  rw [value?.eq_2, skipBlanks_of_not_blank (by decide)]
  cases items with
  | nil => rfl
  | cons v items =>
    obtain ⟨c, cs, hfirst, hkind⟩ := print_first v
    rw [List.map_cons, toList_commaJoined] at hmore ⊢
    have hread := items?_behind (h v List.mem_cons_self)
      (fun w hw => h w (List.mem_cons_of_mem _ hw)) hmore
    rw [hfirst, List.cons_append] at hread ⊢
    simp only [skipBlanks_cons hkind]
    split
    · next heq =>
      obtain ⟨rfl, -⟩ := List.cons.inj heq
      exact absurd (by decide) hkind
    · rw [hread]
      rfl

theorem obj {members : List (String × Json)} (h : ∀ m ∈ members, ReadsBack depth m.2) :
    ReadsBack (depth + 1) (.obj members) := by
  intro fuel rest hfuel _
  rw [toList_print_obj] at hfuel ⊢
  obtain ⟨more, rfl, hmore⟩ := exists_fuel hfuel
  rw [value?.eq_2, skipBlanks_of_not_blank (by decide)]
  cases members with
  | nil => rfl
  | cons m members =>
    rw [List.map_cons, toList_commaJoined] at hmore ⊢
    have hread := members?_behind (h m List.mem_cons_self)
      (fun m' hm' => h m' (List.mem_cons_of_mem _ hm')) hmore []
    rw [toList_memberText] at hread ⊢
    simp only [skipBlanks_of_not_blank (show isBlank '"' = false by decide)]
    split
    · next heq => exact absurd (List.cons.inj heq).1 (by decide)
    · rw [hread]
      rfl

end ReadsBack

/-- A value that can be read is read back, whatever follows it. -/
theorem Writable.readsBack {v : Json} (h : Writable depth v) : ReadsBack depth v := by
  induction h with
  | null => exact .null
  | bool b => exact .bool b
  | int h => exact .int h
  | float x => exact .float x
  | str s => exact .str s
  | arr _ ih => exact .arr ih
  | obj _ ih => exact .obj ih

/-- The text of a value is read back as a document. -/
theorem readWith?_print {v : Json} (h : Writable maxDepth v) :
    readWith? Literal.nearest? v.print = some v.readBack := by
  have hread := h.readsBack (2 * v.print.toList.length + 2) [] (by simp) ends_nil
  rw [List.append_nil] at hread
  rw [readWith?, readChars?, hread]
  rfl

/-! ## Different keys -/

theorem insertMember_perm {key : String} {members : List (String × Json)}
    (h : key ∉ members.map Prod.fst) (v : Json) :
    (insertMember key v members).Perm ((key, v) :: members) := by
  induction members with
  | nil => exact .refl _
  | cons m members ih =>
    obtain ⟨k, w⟩ := m
    rw [List.map_cons, List.mem_cons, not_or] at h
    rw [insertMember, if_neg h.1]
    split
    · exact .refl _
    · exact ((ih h.2).cons _).trans (.swap _ _ _)

/-- Members of different keys are all found, each with its value. -/
theorem readBackMembers_perm {before members : List (String × Json)}
    (h : ((members ++ before).map Prod.fst).Nodup) :
    (readBackMembers before members).Perm (members.map (Prod.map id readBack) ++ before) := by
  induction members generalizing before with
  | nil => exact .refl _
  | cons m members ih =>
    obtain ⟨k, v⟩ := m
    rw [List.cons_append, List.map_cons, List.nodup_cons, List.map_append, List.mem_append,
      not_or] at h
    obtain ⟨⟨hlater, hbefore⟩, hothers⟩ := h
    have hinsert := insertMember_perm hbefore v.readBack
    have hkeys : ((members ++ insertMember k v.readBack before).map Prod.fst).Nodup := by
      have hperm : ((members ++ insertMember k v.readBack before).map Prod.fst).Perm
          (k :: (members.map Prod.fst ++ before.map Prod.fst)) := by
        rw [List.map_append]
        exact ((hinsert.map Prod.fst).append_left _).trans List.perm_middle
      refine hperm.nodup_iff.2 (List.nodup_cons.2 ⟨?_, hothers⟩)
      rw [List.mem_append, not_or]
      exact ⟨hlater, hbefore⟩
    exact (ih hkeys).trans ((hinsert.append_left _).trans List.perm_middle)

end LoadProbe.Json
