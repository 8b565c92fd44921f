import LoadProbe.Proofs.Play.Outcome

/-!
# Reading growing lists page by page

A `Ledger` is a server that keeps a list of items for each channel, which may grow between any two
replies, and answers every requested window with the items that it has there. A run on such a server
loses no item and reads none twice: whatever it has received of a channel when it sends a request is
what the lists of the channel start with, up to the start of the requested page (`Ledger.Current`).
This is kept by the requests that follow a reply (`Ledger.Current.next`, `Ledger.Current.drain`).
-/

namespace LoadProbe

open Facade Feed Pass

/-- The part of a list that a page asks for. -/
def Feed.Page.window (page : Page) (items : List Json) : List Json :=
  (items.drop page.start.toNat).take page.length.toNat

/-- The member of a channel in the results of a pull: these items, and the index after them. -/
def Feed.Channel.Holds (c : Channel) (start : Int) (items : List Json) (raw : Json) : Prop :=
  match c.sliceKey? with
  | some key =>
    raw.get? key = some (.arr items) ∧ raw.get? "NextIndex" = some (.int (start + items.length))
  | none => raw = .arr items

/-- A server with one list of items for each channel, to which items are only ever appended. -/
structure Ledger where
  runId : Int
  /-- The list of a channel when a pull is answered, pulls being counted from 0. -/
  items : Nat → Channel → List Json
  grows : ∀ n c, items n c <+: items (n + 1) c
  /-- Indices are words of 64 bits. -/
  length_lt : ∀ n c, (items n c).length < 2 ^ 63
  /-- The lifecycle text of a reply. -/
  text : Nat → Option String
  /-- How many pulls find the run alive. -/
  alive : Nat
  running : ∀ n < alive, ∀ t, text n = some t → ¬Lifecycle.MarksExit t
  normalExit : text alive = some "NormalExit"
  reply : Nat → Request → Json
  results : Nat → Request → Json
  accepts : ∀ n r, pullResults (reply n r) = .ok (results n r)
  reports : ∀ n r, Returns.status? (results n r) = text n
  /-- Each requested window is answered with the items that the list has there. -/
  holds : ∀ n r c page, r.page? c = some page → ∃ raw,
    (results n r).get? c.key = some raw ∧ c.Holds page.start (page.window (items n c)) raw

/-! ## Replies -/

/-- The member that holds these items. -/
def Feed.Channel.member (c : Channel) (start : Int) (items : List Json) : Json :=
  match c.sliceKey? with
  | some key => .obj [(key, .arr items), ("NextIndex", .int (start + items.length))]
  | none => .arr items

theorem Feed.Channel.holds_member (c : Channel) (start : Int) (items : List Json) :
    c.Holds start items (c.member start items) := by
  cases c with
  | portfolioGrids | riskGrids => rfl
  | _ => exact ⟨rfl, rfl⟩

/-- The results that answer every window of a request out of these lists. -/
def Feed.Request.answer (r : Request) (items : Channel → List Json) (text : Option String) : Json :=
  .obj (("status", .obj [("LifeCycleStatus", (text.map Json.str).getD .null)]) ::
    Channel.all.map fun c => (c.key, match r.page? c with
      | some page => c.member page.start (page.window (items c))
      | none => .null))

theorem Feed.Request.get?_answer (r : Request) (items : Channel → List Json) (text : Option String)
    {c : Channel} {page : Page} (h : r.page? c = some page) :
    (r.answer items text).get? c.key = some (c.member page.start (page.window (items c))) := by
  have hanswer : (r.answer items text).get? c.key = some (match r.page? c with
      | some page => c.member page.start (page.window (items c))
      | none => .null) := by
    cases c <;> rfl
  rw [hanswer, h]

/-- The server that has these lists. -/
def Ledger.serving (runId : Int) (items : Nat → Channel → List Json)
    (grows : ∀ n c, items n c <+: items (n + 1) c) (length_lt : ∀ n c, (items n c).length < 2 ^ 63)
    (text : Nat → Option String) (alive : Nat)
    (running : ∀ n < alive, ∀ t, text n = some t → ¬Lifecycle.MarksExit t)
    (normalExit : text alive = some "NormalExit") : Ledger where
  runId := runId
  items := items
  grows := grows
  length_lt := length_lt
  text := text
  alive := alive
  running := running
  normalExit := normalExit
  reply n r := .obj [("status", .int 0), ("results", r.answer (items n) (text n))]
  results n r := r.answer (items n) (text n)
  accepts _ _ := rfl
  reports n r := by
    have hstatus : Returns.status? (r.answer (items n) (text n)) =
        (((text n).map Json.str).getD .null).text? := rfl
    rw [hstatus]
    cases text n <;> rfl
  holds n r c page h := ⟨_, r.get?_answer (items n) (text n) h, c.holds_member _ _⟩

/-- What has been received of a list, followed by the page after it. -/
theorem Feed.Page.append_window {page : Page} {received items : List Json}
    (h : received <+: items) (hstart : page.start = received.length) :
    received ++ page.window items = items.take (received.length + page.length.toNat) := by
  rw [Page.window, hstart, Int.toNat_natCast, List.take_add]
  congr 1
  exact List.prefix_iff_eq_take.1 h

section Holds

variable {c : Channel} {start : Int} {items : List Json} {raw : Json}

/-- A slice has the items that the member of the channel holds. -/
theorem Feed.Channel.Holds.items_slice (h : c.Holds start items raw) :
    (Returns.slice c raw).items = items := by
  unfold Channel.Holds at h
  unfold Returns.slice
  split <;> rename_i hkey <;> rw [hkey] at h
  · dsimp only at h ⊢
    rw [h.1]
    rfl
  · dsimp only at h ⊢
    rw [h]
    rfl

/-- It also has the index after them, as long as this is a word. -/
theorem Feed.Channel.Holds.nextIndex_slice (h : c.Holds start items raw) (hc : c.isGrid = false)
    (hstart : 0 ≤ start) (hword : start + items.length < 2 ^ 63) :
    (Returns.slice c raw).nextIndex = some (start + items.length) := by
  have hcontains : Number.signed64.contains (start + items.length) = true := by
    rw [Number.Range.contains_iff]
    simp only [Number.signed64]
    omega
  unfold Channel.Holds at h
  unfold Returns.slice
  split <;> rename_i hkey
  · rw [hkey] at h
    dsimp only at h ⊢
    rw [h.2, Option.bind_some, Returns.index?, if_pos hcontains]
  · rw [Channel.isGrid, hkey] at hc
    cases hc

end Holds

namespace Ledger

variable (l : Ledger)

/-- The answers of the server; stops are answered in any way. -/
def script (stops : Nat → Except Failure Unit) : Script where
  plays _ := .ok (.started l.runId)
  pulls n r := pullReturns (l.reply n r)
  stops := stops

/-- What a reply brings. -/
def returns (n : Nat) (r : Request) : Returns :=
  .ofResults (l.results n r)

/-- The items of a channel that a pull call brings for a request that subscribes it. -/
def brought (n : Nat) (r : Request) (c : Channel) : List Json :=
  match r.page? c, pullReturns (l.reply n r) with
  | some _, .ok returns => ((returns.slices.get? c).map (·.items)).getD []
  | _, _ => []

/-- All items of a channel that some pull calls bring, the first of which is number `n`. -/
def receivedFrom (c : Channel) : Nat → List (Nat × Request) → List Json
  | _, [] => []
  | n, call :: rest => l.brought n call.2 c ++ receivedFrom c (n + 1) rest

/-- All items of a channel that the first pull calls of a run bring. -/
def received (c : Channel) (calls : List (Nat × Request)) : List Json :=
  l.receivedFrom c 0 calls

/-- A reply brings no item of any channel that is followed. -/
def Barren (n : Nat) (r : Request) : Prop :=
  ∀ c ∈ Channel.initial, l.brought n r c = []

variable {l} {n : Nat} {r r' : Request} {c : Channel} {page : Page}
variable {before log : List (Nat × Request)} {time time' : Nat}

theorem receivedFrom_concat (call : Nat × Request) :
    l.receivedFrom c n (before ++ [call]) =
      l.receivedFrom c n before ++ l.brought (n + before.length) call.2 c := by
  induction before generalizing n with
  | nil => exact List.append_nil _
  | cons x rest ih =>
    rw [List.cons_append, receivedFrom, ih, receivedFrom, List.append_assoc, List.length_cons,
      Nat.add_right_comm, Nat.add_assoc]

theorem received_concat :
    l.received c (before ++ [(time, r)]) =
      l.received c before ++ l.brought before.length r c := by
  rw [received, receivedFrom_concat, Nat.zero_add]
  rfl

theorem items_mono (l : Ledger) (c : Channel) {m : Nat} (h : n ≤ m) :
    l.items n c <+: l.items m c := by
  induction h with
  | refl => exact List.prefix_rfl
  | step _ ih => exact ih.trans (l.grows _ c)

/-! ## One reply -/

theorem pulls_eq (l : Ledger) (n : Nat) (r : Request) :
    pullReturns (l.reply n r) = .ok (l.returns n r) := by
  rw [pullReturns, l.accepts]
  rfl

theorem status_returns (l : Ledger) (n : Nat) (r : Request) : (l.returns n r).status = l.text n :=
  l.reports n r

/-- As long as the run is alive its replies say so. -/
theorem not_exits (hn : n < l.alive) (r : Request) : ¬(l.returns n r).Exits := by
  rintro ⟨text, htext, hmark⟩
  rw [status_returns] at htext
  exact l.running n hn text htext hmark

theorem terminal?_alive (l : Ledger) (r : Request) :
    (l.returns l.alive r).lifecycle.terminal? = some .success :=
  Returns.terminal?_eq_success.2 ((l.status_returns _ r).trans l.normalExit)

/-- The slice that answers a window. -/
theorem exists_slice (l : Ledger) (n : Nat) (hpage : r.page? c = some page) :
    ∃ raw, (l.returns n r).slices.get? c = some (Returns.slice c raw) ∧
      c.Holds page.start (page.window (l.items n c)) raw := by
  obtain ⟨raw, hraw, hholds⟩ := l.holds n r c page hpage
  refine ⟨raw, ?_, hholds⟩
  rw [returns, Returns.ofResults, Table.get?_ofFn, hraw]
  rfl

/-- A call brings the window that it asks for. -/
theorem brought_eq (l : Ledger) (n : Nat) (hpage : r.page? c = some page) :
    l.brought n r c = page.window (l.items n c) := by
  obtain ⟨raw, hslice, hholds⟩ := l.exists_slice n hpage
  rw [brought, hpage, pulls_eq]
  dsimp only
  rw [hslice]
  exact hholds.items_slice

/-- It brings nothing of a channel that it does not subscribe. -/
theorem brought_of_none (l : Ledger) (n : Nat) (hpage : r.page? c = none) :
    l.brought n r c = [] := by
  rw [brought, hpage]

/-- The next page starts after the items that a call brings. -/
theorem resumeIndex_eq (l : Ledger) (n : Nat) (hpage : r.page? c = some page)
    (hc : c.isGrid = false) (hstart : 0 ≤ page.start)
    (hword : page.start + (page.window (l.items n c)).length < 2 ^ 63) :
    (l.returns n r).resumeIndex c = page.start + (l.brought n r c).length := by
  obtain ⟨raw, hslice, hholds⟩ := l.exists_slice n hpage
  rw [Returns.resumeIndex, hslice, Option.bind_some, hholds.nextIndex_slice hc hstart hword,
    brought_eq l n hpage]
  exact if_pos (by omega)

/-! ## The request after some calls -/

/-- What has been received of each channel when a request is sent: what the list of the channel
starts with, up to the start of the requested page. -/
def Current (l : Ledger) (before : List (Nat × Request)) (r : Request) : Prop :=
  ∀ c ∈ Channel.initial, ∃ page, r.page? c = some page ∧
    page.start = (l.received c before).length ∧
    ∀ n, before.length ≤ n + 1 → l.received c before <+: l.items n c

theorem isGrid_of_initial (hc : c ∈ Channel.initial) : c.isGrid = false := by
  revert hc
  cases c <;> decide

/-- The first request starts every page at 0. -/
theorem current_initial (l : Ledger) (runId size : Int) : l.Current [] (.initial runId size) := by
  intro c hc
  refine ⟨⟨0, size⟩, ?_, rfl, fun _ _ => List.nil_prefix⟩
  rw [Request.page?_initial, if_pos hc]

namespace Current

/-- What has been received after the call as well. -/
theorem received_eq (h : l.Current before r) (hc : c ∈ Channel.initial) (time : Nat) :
    ∃ page, r.page? c = some page ∧ l.received c (before ++ [(time, r)]) =
      (l.items before.length c).take ((l.received c before).length + page.length.toNat) := by
  obtain ⟨page, hpage, hstart, hpre⟩ := h c hc
  refine ⟨page, hpage, ?_⟩
  rw [received_concat, brought_eq l _ hpage]
  exact Page.append_window (hpre _ (Nat.le_succ _)) hstart

/-- The reply says that the next page starts after all of that. -/
theorem resumeIndex_eq (h : l.Current before r) (hc : c ∈ Channel.initial) (time : Nat) :
    (l.returns before.length r).resumeIndex c = (l.received c (before ++ [(time, r)])).length := by
  obtain ⟨page, hpage, hstart, -⟩ := h c hc
  obtain ⟨page', hpage', hall⟩ := h.received_eq hc time
  have hle : (l.received c (before ++ [(time, r)])).length ≤ (l.items before.length c).length := by
    rw [hall]
    exact List.length_take_le' _ _
  have hword := l.length_lt before.length c
  rw [received_concat, List.length_append, brought_eq l _ hpage] at hle
  rw [l.resumeIndex_eq _ hpage (isGrid_of_initial hc) (by omega) (by omega), received_concat,
    List.length_append]
  omega

/-- A request whose pages start where the reply says keeps to what has been received. -/
theorem step (h : l.Current before r) (time : Nat) (hstarts : ∀ c ∈ Channel.initial, ∃ length,
      r'.page? c = some ⟨(l.returns before.length r).resumeIndex c, length⟩) :
    l.Current (before ++ [(time, r)]) r' := by
  intro c hc
  obtain ⟨length, hpage'⟩ := hstarts c hc
  refine ⟨_, hpage', h.resumeIndex_eq hc time, fun n hn => ?_⟩
  obtain ⟨page, -, hall⟩ := h.received_eq hc time
  rw [List.length_append, List.length_singleton] at hn
  have htaken := List.take_prefix ((l.received c before).length + page.length.toNat)
    (l.items before.length c)
  rw [hall]
  exact htaken.trans (l.items_mono c (by omega))

theorem next (h : l.Current before r) (time : Nat) :
    l.Current (before ++ [(time, r)]) (r.next (l.returns before.length r)) := by
  refine h.step time fun c hc => ?_
  obtain ⟨page, hpage, -⟩ := h c hc
  exact ⟨page.length, by rw [Request.page?_next, hpage]; rfl⟩

theorem drain (h : l.Current before r) (time : Nat) (grids : Bool) :
    l.Current (before ++ [(time, r)]) (r.drain (l.returns before.length r) grids) := by
  refine h.step time fun c hc => ?_
  obtain ⟨page, hpage, -⟩ := h c hc
  refine ⟨unboundedLength, ?_⟩
  rw [Request.page?_drain r _ grids (isGrid_of_initial hc), hpage]
  rfl

/-- No page moves exactly when the reply brings nothing of the channels that are followed. -/
theorem unmoved_iff (h : l.Current before r)
    (hfollows : ∀ c page, r.page? c = some page → c ∈ Channel.initial) :
    r.Unmoved (l.returns before.length r) ↔ l.Barren before.length r := by
  have hmoves : ∀ c page, r.page? c = some page → c ∈ Channel.initial →
      (l.returns before.length r).resumeIndex c =
        page.start + (l.brought before.length r c).length := by
    intro c page hpage hc
    obtain ⟨page', hpage', hstart, -⟩ := h c hc
    obtain rfl := Option.some.inj (hpage.symm.trans hpage')
    rw [h.resumeIndex_eq hc 0, received_concat, List.length_append, hstart]
    exact Int.natCast_add _ _
  constructor
  · intro hun c hc
    obtain ⟨page, hpage, -⟩ := h c hc
    have hmove := hmoves c page hpage hc
    rw [hun c page hpage] at hmove
    exact List.eq_nil_of_length_eq_zero (by omega)
  · intro hbarren c page hpage
    have hc := hfollows c page hpage
    rw [hmoves c page hpage hc, hbarren c hc]
    exact Int.add_zero _

end Current

end Ledger

end LoadProbe
