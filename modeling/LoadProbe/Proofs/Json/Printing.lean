import LoadProbe.Json.Printer
import LoadProbe.Json.Reader

/-!
# What a text tells of its value

The compact text of a value without doubles tells it from every other one, also when something else
follows it (`Exact.tells_apart`), so printing is injective on these values (`print_inj`). A string is
found again by reading it back (`stringBody_quoted`), an integer by its digits (`int_told_apart`), as
long as no further digit follows, and a list of items or members by the commas and the closing
bracket between and behind them (`row_told_apart`).
-/

namespace LoadProbe.Json

open Number

/-! ## Strings -/

theorem hexValue?_hexDigit : ∀ n < 16, hexValue? (hexDigit n) = some n := by
  decide

/-- A control character is given by its number. -/
theorem codeUnit?_control {c : Char} (hc : c.toNat < 32) :
    codeUnit? '0' '0' (hexDigit (c.toNat / 16)) (hexDigit (c.toNat % 16)) = some c.toNat := by
  have hhigh := hexValue?_hexDigit (c.toNat / 16) (by omega)
  have hlow := hexValue?_hexDigit (c.toNat % 16) (by omega)
  have hzero : hexValue? '0' = some 0 := by decide
  simp only [codeUnit?, hhigh, hlow, hzero, Option.bind_eq_bind, Option.bind_some]
  congr 1
  omega

/-- A character with an escape of one letter. -/
theorem stringBody_shortEscape {letter c : Char} (h : shortEscape? letter = some c)
    (rest : List Char) :
    stringBody ('\\' :: letter :: rest) = (stringBody rest).map fun p => (c :: p.1, p.2) := by
  have hletter : letter ≠ 'u' := by
    rintro rfl
    rw [show shortEscape? 'u' = none by decide] at h
    cases h
  rw [stringBody.eq_4 letter rest fun _ _ _ _ _ hu _ => hletter hu, h]
  cases stringBody rest <;> rfl

/-- A character that is given by its number, no half of a surrogate pair. -/
theorem stringBody_codeUnit {a b c d : Char} {u : Nat} (h : codeUnit? a b c d = some u)
    (hu : u < 0xD800) (rest : List Char) :
    stringBody ('\\' :: 'u' :: a :: b :: c :: d :: rest) =
      (stringBody rest).map fun p => (Char.ofNat u :: p.1, p.2) := by
  have hlow : isLowHalf u = false := by
    simp only [isLowHalf, Bool.and_eq_false_iff, decide_eq_false_iff_not]
    omega
  have hhigh : isHighHalf u = false := by
    simp only [isHighHalf, Bool.and_eq_false_iff, decide_eq_false_iff_not]
    omega
  rw [stringBody.eq_3, h]
  simp only [Option.bind_eq_bind, Option.bind_some, hlow, hhigh, Bool.false_eq_true, if_false]
  cases stringBody rest <;> rfl

/-- A character that stands for itself. -/
theorem stringBody_plain {c : Char} (hquote : c ≠ '"') (hslash : c ≠ '\\') (hc : 32 ≤ c.toNat)
    (rest : List Char) :
    stringBody (c :: rest) = (stringBody rest).map fun p => (c :: p.1, p.2) := by
  rw [stringBody.eq_5 c rest hquote (fun _ _ _ _ _ h _ => hslash h) fun _ _ h _ => hslash h,
    if_neg (Nat.not_lt.2 hc)]
  cases stringBody rest <;> rfl

/-- The characters with an escape of one letter. -/
def lettered : List Char :=
  ['"', '\\', '\x08', '\x0c', '\n', '\r', '\t']

theorem escapeChar_of_lettered {c : Char} (h : c ∈ lettered) :
    ∃ letter, escapeChar c = ['\\', letter] ∧ shortEscape? letter = some c := by
  simp only [lettered, List.mem_cons, List.not_mem_nil, or_false] at h
  rcases h with rfl | rfl | rfl | rfl | rfl | rfl | rfl <;> exact ⟨_, rfl, by decide⟩

theorem escapeChar_of_not_lettered {c : Char} (h : c ∉ lettered) :
    escapeChar c = if c.toNat < 32 then
      ['\\', 'u', '0', '0', hexDigit (c.toNat / 16), hexDigit (c.toNat % 16)] else [c] := by
  simp only [lettered, List.mem_cons, List.not_mem_nil, or_false, not_or] at h
  simp only [escapeChar, h, if_false]

/-- An escaped character is read back. -/
theorem stringBody_escapeChar (c : Char) (rest : List Char) :
    stringBody (escapeChar c ++ rest) = (stringBody rest).map fun p => (c :: p.1, p.2) := by
  by_cases h : c ∈ lettered
  · obtain ⟨letter, hescape, hletter⟩ := escapeChar_of_lettered h
    rw [hescape]
    exact stringBody_shortEscape hletter rest
  · rw [escapeChar_of_not_lettered h]
    split
    · next hc =>
      have hread := stringBody_codeUnit (codeUnit?_control hc) (by omega) rest
      rwa [Char.ofNat_toNat] at hread
    · next hc =>
      simp only [lettered, List.mem_cons, not_or] at h
      exact stringBody_plain h.1 h.2.1 (Nat.not_lt.1 hc) rest

/-- A string is read back, whatever follows it. -/
theorem stringBody_quoted (s rest : List Char) :
    stringBody (s.flatMap escapeChar ++ '"' :: rest) = some (s, rest) := by
  induction s with
  | nil => rw [List.flatMap_nil, List.nil_append, stringBody]
  | cons c s ih =>
    rw [List.flatMap_cons, List.append_assoc, stringBody_escapeChar, ih, Option.map_some]

theorem toList_quote (s : String) (rest : List Char) :
    (quote s).toList ++ rest = '"' :: (s.toList.flatMap escapeChar ++ '"' :: rest) := by
  rw [quote, quoteChars, String.toList_ofList, List.cons_append, List.append_assoc]
  rfl

/-- The literal of a string tells it and what follows. -/
theorem quote_told_apart {s t : String} {rest rest' : List Char}
    (h : (quote s).toList ++ rest = (quote t).toList ++ rest') : s = t ∧ rest = rest' := by
  rw [toList_quote, toList_quote] at h
  have hread := congrArg stringBody (List.cons.inj h).2
  rw [stringBody_quoted, stringBody_quoted, Option.some.injEq, Prod.mk.injEq] at hread
  exact ⟨String.toList_inj.1 hread.1, hread.2⟩

/-! ## Integers -/

/-- What follows a number begins with no digit. -/
def NoDigit (rest : List Char) : Prop :=
  ∀ c ∈ rest.head?, c.isDigit = false

theorem noDigit_nil : NoDigit [] := nofun

theorem noDigit_cons {c : Char} (hc : c.isDigit = false) (rest : List Char) :
    NoDigit (c :: rest) := by
  rintro c' h
  obtain rfl := Option.some.inj h
  exact hc

/-- A row of digits ends where no further digit follows. -/
theorem takeWhile_digits {digits rest : List Char} (hdigits : ∀ c ∈ digits, c.isDigit = true)
    (hrest : NoDigit rest) : (digits ++ rest).takeWhile Char.isDigit = digits := by
  rw [List.takeWhile_append_of_pos hdigits]
  cases rest with
  | nil => rw [List.takeWhile_nil, List.append_nil]
  | cons c rest =>
    rw [List.takeWhile_cons_of_neg (by rw [hrest c rfl]; exact Bool.false_ne_true), List.append_nil]

theorem toList_repr (n : Nat) : (Nat.repr n).toList = Nat.toDigits 10 n :=
  String.toList_ofList

theorem isDigit_of_mem_toDigits (n : Nat) : ∀ c ∈ Nat.toDigits 10 n, c.isDigit = true :=
  fun _ hc => Nat.isDigit_of_mem_toDigits (by omega) (by omega) hc

/-- The digits of a natural tell it and what follows. -/
theorem nat_told_apart {m n : Nat} {rest rest' : List Char} (hrest : NoDigit rest)
    (hrest' : NoDigit rest') (h : Nat.toDigits 10 m ++ rest = Nat.toDigits 10 n ++ rest') :
    m = n ∧ rest = rest' := by
  have hsame := congrArg (List.takeWhile Char.isDigit) h
  rw [takeWhile_digits (isDigit_of_mem_toDigits m) hrest,
    takeWhile_digits (isDigit_of_mem_toDigits n) hrest'] at hsame
  have hvalue := congrArg (Nat.ofDigitChars 10 · 0) hsame
  simp only [Nat.ofDigitChars_toDigits (by omega : 1 < 10) (by omega : 10 ≤ 10)] at hvalue
  rw [hsame] at h
  exact ⟨hvalue, List.append_cancel_left h⟩

theorem toDigits_eq_cons (n : Nat) :
    ∃ c digits, Nat.toDigits 10 n = c :: digits ∧ c.isDigit = true := by
  obtain ⟨c, digits, h⟩ := List.exists_cons_of_ne_nil (Nat.toDigits_ne_nil (n := n) (b := 10))
  exact ⟨c, digits, h, isDigit_of_mem_toDigits n c (h ▸ List.mem_cons_self)⟩

theorem toList_repr_ofNat (n : Nat) : (Int.repr (.ofNat n)).toList = Nat.toDigits 10 n :=
  toList_repr n

theorem toList_repr_negSucc (n : Nat) :
    (Int.repr (.negSucc n)).toList = '-' :: Nat.toDigits 10 (n + 1) := by
  show ("-" ++ Nat.repr (n + 1)).toList = _
  rw [String.toList_append, toList_repr]
  rfl

/-- The digits of an integer, with its sign, tell it and what follows. -/
theorem int_told_apart {m n : Int} {rest rest' : List Char} (hrest : NoDigit rest)
    (hrest' : NoDigit rest') (h : (Int.repr m).toList ++ rest = (Int.repr n).toList ++ rest') :
    m = n ∧ rest = rest' := by
  have hsign : ∀ (k : Nat) (r r' : List Char), '-' :: r ≠ Nat.toDigits 10 k ++ r' := by
    intro k r r' heq
    obtain ⟨c, digits, hk, hc⟩ := toDigits_eq_cons k
    rw [hk, List.cons_append, List.cons.injEq] at heq
    rw [← heq.1] at hc
    exact absurd hc (by decide)
  cases m with
  | ofNat m =>
    rw [toList_repr_ofNat] at h
    cases n with
    | ofNat n =>
      rw [toList_repr_ofNat] at h
      obtain ⟨rfl, hsame⟩ := nat_told_apart hrest hrest' h
      exact ⟨rfl, hsame⟩
    | negSucc n =>
      rw [toList_repr_negSucc] at h
      exact absurd h.symm (hsign m _ rest)
  | negSucc m =>
    rw [toList_repr_negSucc] at h
    cases n with
    | ofNat n =>
      rw [toList_repr_ofNat] at h
      exact absurd h (hsign n _ rest')
    | negSucc n =>
      rw [toList_repr_negSucc, List.cons_append, List.cons_append, List.cons.injEq] at h
      obtain ⟨hsucc, hsame⟩ := nat_told_apart hrest hrest' h.2
      obtain rfl := Nat.succ.inj hsucc
      exact ⟨rfl, hsame⟩

/-! ## Rows of texts -/

section Rows

variable {α : Type} {text : α → String} {close : Char} {a b : α} {as bs : List α}
variable {rest rest' : List Char}

/-- The texts of two things tell them apart, as long as no digit follows. -/
def TellsApart (text : α → String) (a b : α) : Prop :=
  ∀ {rest rest' : List Char}, NoDigit rest → NoDigit rest' →
    (text a).toList ++ rest = (text b).toList ++ rest' → a = b ∧ rest = rest'

/-- What stands behind the first text of a row: the others, each after a comma, the closing bracket
and what follows. -/
def behind (close : Char) (rest : List Char) : List String → List Char
  | [] => close :: rest
  | s :: texts => ',' :: (s.toList ++ behind close rest texts)

theorem toList_commaJoined (close : Char) (rest : List Char) (s : String) (texts : List String) :
    (commaJoined (s :: texts)).toList ++ close :: rest = s.toList ++ behind close rest texts := by
  induction texts generalizing s with
  | nil => rfl
  | cons t texts ih =>
    rw [commaJoined, String.toList_append, String.toList_append, List.append_assoc,
      List.append_assoc, ih, behind]
    rfl

theorem noDigit_behind (hdigit : close.isDigit = false) (rest : List Char) (texts : List String) :
    NoDigit (behind close rest texts) := by
  cases texts with
  | nil => exact noDigit_cons hdigit _
  | cons s texts => exact noDigit_cons (by decide) _

theorem behind_told_apart (hclose : close ≠ ',') (hdigit : close.isDigit = false)
    (hapart : ∀ a ∈ as, ∀ b ∈ bs, TellsApart text a b)
    (h : behind close rest (as.map text) = behind close rest' (bs.map text)) :
    as = bs ∧ rest = rest' := by
  induction as generalizing bs with
  | nil =>
    cases bs with
    | nil => exact ⟨rfl, (List.cons.inj h).2⟩
    | cons b bs => exact absurd (List.cons.inj h).1 hclose
  | cons a as ih =>
    cases bs with
    | nil => exact absurd (List.cons.inj h).1.symm hclose
    | cons b bs =>
      obtain ⟨rfl, hbehind⟩ := hapart a List.mem_cons_self b List.mem_cons_self
        (noDigit_behind hdigit _ _) (noDigit_behind hdigit _ _) (List.cons.inj h).2
      obtain ⟨rfl, hrest⟩ := ih (fun a' ha' b' hb' =>
        hapart a' (List.mem_cons_of_mem _ ha') b' (List.mem_cons_of_mem _ hb')) hbehind
      exact ⟨rfl, hrest⟩

/-- A row of texts none of which begins like the closing bracket. -/
theorem row_told_apart (hclose : close ≠ ',') (hdigit : close.isDigit = false)
    (hopen : ∀ a ∈ as ++ bs, ∃ c cs, (text a).toList = c :: cs ∧ c ≠ close)
    (hapart : ∀ a ∈ as, ∀ b ∈ bs, TellsApart text a b)
    (h : (commaJoined (as.map text)).toList ++ close :: rest =
      (commaJoined (bs.map text)).toList ++ close :: rest') :
    as = bs ∧ rest = rest' := by
  have hfirst : ∀ a ∈ as ++ bs, ∀ (texts : List String) (r r' : List Char),
      close :: r ≠ (text a).toList ++ behind close r' texts := by
    intro a ha texts r r' heq
    obtain ⟨c, cs, hc, hne⟩ := hopen a ha
    rw [hc, List.cons_append, List.cons.injEq] at heq
    exact hne heq.1.symm
  cases as with
  | nil =>
    cases bs with
    | nil => exact ⟨rfl, (List.cons.inj h).2⟩
    | cons b bs =>
      rw [List.map_cons, toList_commaJoined] at h
      exact absurd h (hfirst b (by simp) _ _ _)
  | cons a as =>
    rw [List.map_cons, toList_commaJoined] at h
    cases bs with
    | nil => exact absurd h.symm (hfirst a (by simp) _ _ _)
    | cons b bs =>
      rw [List.map_cons, toList_commaJoined] at h
      exact behind_told_apart hclose hdigit hapart (congrArg (List.cons ',') h)

end Rows

/-! ## Values -/

/-- No number in the value is a double. -/
inductive Exact : Json → Prop where
  | null : Exact .null
  | bool (b : Bool) : Exact (.bool b)
  | int (n : Int) : Exact (.int n)
  | str (s : String) : Exact (.str s)
  | arr {items : List Json} (h : ∀ v ∈ items, Exact v) : Exact (.arr items)
  | obj {members : List (String × Json)} (h : ∀ m ∈ members, Exact m.2) : Exact (.obj members)

attribute [simp] Exact.null Exact.bool Exact.int Exact.str

@[simp] theorem exact_obj_iff {members : List (String × Json)} :
    (obj members).Exact ↔ ∀ m ∈ members, m.2.Exact := by
  constructor
  · intro h
    cases h with
    | obj h => exact h
  · exact .obj

/-- What kind of value it is. -/
inductive Kind where
  | null
  | truth
  | number
  | string
  | array
  | object
deriving DecidableEq

def kind : Json → Kind
  | .null => .null
  | .bool _ => .truth
  | .int _ => .number
  | .float _ => .number
  | .str _ => .string
  | .arr _ => .array
  | .obj _ => .object

/-- The kind of the values whose text begins with a character. -/
def Kind.ofFirst? (c : Char) : Option Kind :=
  if c = 'n' then some .null
  else if c = 't' ∨ c = 'f' then some .truth
  else if c = '"' then some .string
  else if c = '[' then some .array
  else if c = '\x7b' then some .object
  else if c = '-' ∨ c.isDigit then some .number
  else none

theorem Kind.ofFirst?_digit {c : Char} (hc : c.isDigit = true) :
    Kind.ofFirst? c = some .number := by
  have hne : ∀ d : Char, d.isDigit = false → c ≠ d := by
    rintro d hd rfl
    rw [hc] at hd
    cases hd
  simp only [ofFirst?, hc, hne 'n' (by decide), hne 't' (by decide), hne 'f' (by decide),
    hne '"' (by decide), hne '[' (by decide), hne '\x7b' (by decide), or_true, or_self, if_true,
    if_false]

/-- The text of a member of an object. -/
def memberText (m : String × Json) : String :=
  quote m.1 ++ ":" ++ print m.2

theorem printItems_eq_map (items : List Json) : printItems items = items.map print := by
  induction items with
  | nil => rfl
  | cons v rest ih => rw [printItems, ih, List.map_cons]

theorem printMembers_eq_map (members : List (String × Json)) :
    printMembers members = members.map memberText := by
  induction members with
  | nil => rfl
  | cons m rest ih => rw [printMembers, ih, List.map_cons, memberText]

theorem toList_print_arr (items : List Json) (rest : List Char) :
    (print (.arr items)).toList ++ rest =
      '[' :: ((commaJoined (items.map print)).toList ++ ']' :: rest) := by
  rw [print, printItems_eq_map, String.toList_append, String.toList_append, List.append_assoc,
    List.append_assoc]
  rfl

theorem toList_print_obj (members : List (String × Json)) (rest : List Char) :
    (print (.obj members)).toList ++ rest =
      '\x7b' :: ((commaJoined (members.map memberText)).toList ++ '\x7d' :: rest) := by
  rw [print, printMembers_eq_map, String.toList_append, String.toList_append, List.append_assoc,
    List.append_assoc]
  rfl

/-- The text of a value begins with a character of its kind. -/
theorem Exact.exists_first {v : Json} (hv : v.Exact) :
    ∃ c cs, v.print.toList = c :: cs ∧ Kind.ofFirst? c = some v.kind := by
  cases hv with
  | null => exact ⟨_, _, rfl, rfl⟩
  | bool b => cases b <;> exact ⟨_, _, rfl, rfl⟩
  | int n =>
    cases n with
    | ofNat n =>
      obtain ⟨c, digits, hn, hc⟩ := toDigits_eq_cons n
      exact ⟨c, digits, (toList_repr_ofNat n).trans hn, Kind.ofFirst?_digit hc⟩
    | negSucc n => exact ⟨_, _, toList_repr_negSucc n, rfl⟩
  | str s => exact ⟨_, _, (List.append_nil _).symm.trans (toList_quote s []), rfl⟩
  | arr h => exact ⟨_, _, (List.append_nil _).symm.trans (toList_print_arr _ []), rfl⟩
  | obj h => exact ⟨_, _, (List.append_nil _).symm.trans (toList_print_obj _ []), rfl⟩

/-- Values of which one text begins like the other are of one kind. -/
theorem Exact.kind_eq {v w : Json} (hv : v.Exact) (hw : w.Exact) {rest rest' : List Char}
    (h : v.print.toList ++ rest = w.print.toList ++ rest') : v.kind = w.kind := by
  obtain ⟨c, cs, hc, hkind⟩ := hv.exists_first
  obtain ⟨c', cs', hc', hkind'⟩ := hw.exists_first
  rw [hc, hc', List.cons_append, List.cons_append, List.cons.injEq] at h
  rw [h.1, hkind'] at hkind
  exact (Option.some.inj hkind).symm

/-- Members are told apart by their keys and, behind them, their values. -/
theorem member_tells_apart {m m' : String × Json} (h : TellsApart print m.2 m'.2) :
    TellsApart memberText m m' := by
  intro rest rest' hrest hrest' heq
  simp only [memberText, String.toList_append, List.append_assoc] at heq
  obtain ⟨hkey, hvalue⟩ := quote_told_apart heq
  obtain ⟨hsame, hrest⟩ := h hrest hrest' (List.append_cancel_left hvalue)
  exact ⟨Prod.ext hkey hsame, hrest⟩

/-- Arrays are told apart by their items. No text of a value begins with the closing bracket. -/
theorem arr_tells_apart {items items' : List Json} (hitems : ∀ v ∈ items, v.Exact)
    (hitems' : ∀ v ∈ items', v.Exact)
    (hapart : ∀ v ∈ items, ∀ w ∈ items', TellsApart print v w) :
    TellsApart print (.arr items) (.arr items') := by
  intro rest rest' _ _ h
  have hopen : ∀ v ∈ items ++ items', ∃ c cs, v.print.toList = c :: cs ∧ c ≠ ']' := by
    intro v hv
    obtain ⟨c, cs, hc, hkind⟩ :=
      Exact.exists_first ((List.mem_append.1 hv).elim (hitems v) (hitems' v))
    refine ⟨c, cs, hc, ?_⟩
    rintro rfl
    cases hkind
  rw [toList_print_arr, toList_print_arr] at h
  obtain ⟨rfl, hsame⟩ :=
    row_told_apart (by decide) (by decide) hopen hapart (List.cons.inj h).2
  exact ⟨rfl, hsame⟩

/-- Objects are told apart by their members. The text of a member begins with its key. -/
theorem obj_tells_apart {members members' : List (String × Json)}
    (hapart : ∀ m ∈ members, ∀ m' ∈ members', TellsApart print m.2 m'.2) :
    TellsApart print (.obj members) (.obj members') := by
  intro rest rest' _ _ h
  have hopen : ∀ m ∈ members ++ members', ∃ c cs,
      (memberText m).toList = c :: cs ∧ c ≠ '\x7d' := by
    intro m _
    rw [memberText, String.toList_append, String.toList_append, List.append_assoc, toList_quote]
    exact ⟨_, _, rfl, by decide⟩
  rw [toList_print_obj, toList_print_obj] at h
  obtain ⟨rfl, hsame⟩ := row_told_apart (by decide) (by decide) hopen
    (fun m hm m' hm' => member_tells_apart (hapart m hm m' hm')) (List.cons.inj h).2
  exact ⟨rfl, hsame⟩

/-- Values of different kinds are told apart by the first character, so it is enough to tell those
of one kind apart. -/
theorem Exact.tells_apart_of_kind {v w : Json} (hv : v.Exact) (hw : w.Exact)
    (h : v.kind = w.kind → TellsApart print v w) : TellsApart print v w := by
  intro rest rest' hrest hrest' heq
  exact h (hv.kind_eq hw heq) hrest hrest' heq

/-- The texts of values without doubles tell them apart. By induction on the first value: the items
of an array and the members of an object are told apart one after the other. -/
theorem Exact.tells_apart {v w : Json} (hv : v.Exact) (hw : w.Exact) : TellsApart print v w := by
  induction hv generalizing w with
  | null =>
    refine Exact.null.tells_apart_of_kind hw fun hkind => ?_
    cases hw with
    | null =>
      intro rest rest' _ _ h
      exact ⟨rfl, List.append_cancel_left h⟩
    | _ => cases hkind
  | bool b =>
    refine (Exact.bool b).tells_apart_of_kind hw fun hkind => ?_
    cases hw with
    | bool b' =>
      intro rest rest' _ _ h
      cases b <;> cases b'
      · exact ⟨rfl, List.append_cancel_left h⟩
      · exact absurd (List.cons.inj h).1 (by decide)
      · exact absurd (List.cons.inj h).1 (by decide)
      · exact ⟨rfl, List.append_cancel_left h⟩
    | _ => cases hkind
  | int n =>
    refine (Exact.int n).tells_apart_of_kind hw fun hkind => ?_
    cases hw with
    | int n' =>
      intro rest rest' hrest hrest' h
      obtain ⟨rfl, hsame⟩ := int_told_apart hrest hrest' h
      exact ⟨rfl, hsame⟩
    | _ => cases hkind
  | str s =>
    refine (Exact.str s).tells_apart_of_kind hw fun hkind => ?_
    cases hw with
    | str s' =>
      intro rest rest' _ _ h
      obtain ⟨rfl, hsame⟩ := quote_told_apart h
      exact ⟨rfl, hsame⟩
    | _ => cases hkind
  | arr hitems ih =>
    refine (Exact.arr hitems).tells_apart_of_kind hw fun hkind => ?_
    cases hw with
    | arr hitems' =>
      exact arr_tells_apart hitems hitems' fun v hv w hw => ih v hv (hitems' w hw)
    | _ => cases hkind
  | obj hmembers ih =>
    refine (Exact.obj hmembers).tells_apart_of_kind hw fun hkind => ?_
    cases hw with
    | obj hmembers' => exact obj_tells_apart fun m hm m' hm' => ih m hm (hmembers' m' hm')
    | _ => cases hkind

/-- Values without doubles that have one text are equal. -/
theorem print_inj {v w : Json} (hv : v.Exact) (hw : w.Exact) (h : v.print = w.print) : v = w :=
  (hv.tells_apart hw noDigit_nil noDigit_nil (by rw [h])).1

end LoadProbe.Json
