/-!
# JSON values

`Json` keeps integers and doubles apart, and keeps the members of an object as a list: a message
that this program writes has its members in the order of writing, and a value that was read has
them sorted by key with one member a key (`insertMember`).
-/

namespace LoadProbe

/-- A JSON value. -/
inductive Json where
  | null
  | bool (b : Bool)
  /-- An integer of the word ranges, signed or unsigned, of 64 bits. -/
  | int (n : Int)
  /-- Any other number. -/
  | float (x : Float)
  | str (s : String)
  | arr (items : List Json)
  | obj (members : List (String × Json))
deriving Inhabited

namespace Json

/-- The member of an object at a key; other values have no members. -/
def get? (key : String) : Json → Option Json
  | .obj members => members.lookup key
  | _ => none

/-- The text of a string value. -/
def text? : Json → Option String
  | .str s => some s
  | _ => none

/-- The items of an array; other values have none. -/
def itemsOrNone : Json → List Json
  | .arr items => items
  | _ => []

/-- Puts a member into a list sorted by key; a member of that key is replaced. -/
def insertMember (key : String) (v : Json) : List (String × Json) → List (String × Json)
  | [] => [(key, v)]
  | (k, w) :: rest =>
    if key = k then (key, v) :: rest
    else if key < k then (key, v) :: (k, w) :: rest
    else (k, w) :: insertMember key v rest

/-- After an insertion the inserted key holds the inserted value. -/
theorem lookup_insertMember_self (key : String) (v : Json) (ms : List (String × Json)) :
    (insertMember key v ms).lookup key = some v := by
  induction ms with
  | nil => simp [insertMember]
  | cons m rest ih =>
    obtain ⟨k, w⟩ := m
    simp only [insertMember]
    split
    · simp
    · next hne =>
      split
      · simp
      · rw [List.lookup_cons, beq_false_of_ne hne, ih]

/-- An insertion changes no other key. -/
theorem lookup_insertMember_of_ne {key other : String} (h : other ≠ key) (v : Json)
    (ms : List (String × Json)) :
    (insertMember key v ms).lookup other = ms.lookup other := by
  have hb : (other == key) = false := by simp [h]
  induction ms with
  | nil => rw [insertMember, List.lookup_cons, hb]
  | cons m rest ih =>
    obtain ⟨k, w⟩ := m
    simp only [insertMember]
    split
    · next hk => subst hk; rw [List.lookup_cons, List.lookup_cons, hb]
    · split
      · rw [List.lookup_cons, hb]
      · rw [List.lookup_cons, List.lookup_cons, ih]

end Json

end LoadProbe
