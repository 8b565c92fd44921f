import Mathlib.Data.List.Nodup
import LoadProbe.Facade.Command
import LoadProbe.Proofs.Feed.Request
import LoadProbe.Proofs.Json.Printing

/-!
# The text of a pull request

The server sees no more of a pull request than its text, while a run compares the requests
themselves to find out whether a reply moved any page. Both come to the same: the text holds the run
id and, under the keys of their channels, the pages, all of them values without doubles, and so it
tells the request (`requestText_inj`). The pages stand in channel order there, however the request
was put together: pages of different channels may be added in any order (`withPages_perm`), and of
the pages of one channel only the last one counts (`withPages_cons_of_mem`).
-/

namespace LoadProbe

namespace Feed

/-! ## Several pages, one after the other -/

namespace Request

variable {r s : Request} {pages pages' : List (Channel × Page)}

/-- The request with each of the pages subscribed, one after the other. -/
def withPages (r : Request) (pages : List (Channel × Page)) : Request :=
  pages.foldl (fun r entry => r.withPage entry.1 entry.2) r

theorem withPages_append (r : Request) (pages pages' : List (Channel × Page)) :
    r.withPages (pages ++ pages') = (r.withPages pages).withPages pages' :=
  List.foldl_append

/-- The other channels keep their pages. -/
theorem page?_withPages_of_not_mem {c : Channel} (hc : c ∉ pages.map Prod.fst) (r : Request) :
    (r.withPages pages).page? c = r.page? c := by
  induction pages generalizing r with
  | nil => rfl
  | cons entry pages ih =>
    rw [List.map_cons, List.mem_cons, not_or] at hc
    show ((r.withPage entry.1 entry.2).withPages pages).page? c = r.page? c
    rw [ih hc.2, page?_withPage, if_neg (Ne.symm hc.1)]

/-- The pages of different channels are added in either order. -/
theorem withPage_comm {c d : Channel} (h : c ≠ d) (r : Request) (page page' : Page) :
    (r.withPage c page).withPage d page' = (r.withPage d page').withPage c page := by
  refine ext rfl fun e => ?_
  simp only [page?_withPage]
  by_cases hc : c = e
  · have hd : d ≠ e := hc ▸ Ne.symm h
    simp only [if_pos hc, if_neg hd]
  · simp only [if_neg hc]

/-- Pages of different channels are added in any order. -/
theorem withPages_perm (hperm : pages.Perm pages') (hchannels : (pages.map Prod.fst).Nodup)
    (r : Request) : r.withPages pages = r.withPages pages' := by
  refine hperm.foldl_eq' (fun entry hentry entry' hentry' r => ?_) r
  by_cases h : entry.1 = entry'.1
  · rw [List.inj_on_of_nodup_map hchannels hentry hentry' h]
  · exact withPage_comm h r _ _

/-- Requests that differ only in channels to which a page is added later. -/
theorem withPages_congr (hid : r.runId = s.runId)
    (h : ∀ c, c ∉ pages.map Prod.fst → r.page? c = s.page? c) :
    r.withPages pages = s.withPages pages := by
  induction pages generalizing r s with
  | nil => exact ext hid fun c => h c List.not_mem_nil
  | cons entry pages ih =>
    refine ih hid fun c hc => ?_
    rw [page?_withPage, page?_withPage]
    split
    · rfl
    · next hne => exact h c (by simpa [Ne.symm hne] using hc)

/-- A page does not count when another one of its channel is added later. -/
theorem withPages_cons_of_mem {c : Channel} (hc : c ∈ pages.map Prod.fst) (r : Request)
    (page : Page) : r.withPages ((c, page) :: pages) = r.withPages pages := by
  show (r.withPage c page).withPages pages = r.withPages pages
  refine withPages_congr rfl fun d hd => ?_
  have hne : c ≠ d := by
    rintro rfl
    exact hd hc
  rw [page?_withPage, if_neg hne]

end Request

end Feed

/-! ## The text -/

namespace Facade

open Feed

variable {r s : Request} {account : Account}

theorem exact_pageJson (c : Channel) (page : Page) : (pageJson c page).Exact := by
  simp [pageJson]

theorem pageJson_inj {c d : Channel} {page page' : Page} (h : pageJson c page = pageJson d page') :
    page = page' := by
  simp only [pageJson, Json.obj.injEq, List.cons.injEq, Prod.mk.injEq, Json.int.injEq] at h
  obtain ⟨-, ⟨-, hstart⟩, ⟨-, hlength⟩, -⟩ := h
  cases page
  cases page'
  cases hstart
  cases hlength
  rfl

/-- A pull request has no doubles in it. -/
theorem exact_requestJson (r : Request) : (requestJson r).Exact := by
  refine .obj fun m hm => ?_
  rcases List.mem_cons.1 hm with rfl | hm
  · exact .int r.runId
  · obtain ⟨⟨c, page⟩, -, rfl⟩ := List.mem_map.1 hm
    exact exact_pageJson c page

/-- The object of a pull request tells the run and the page of every channel. -/
theorem requestJson_inj (h : requestJson r = requestJson s) : r = s := by
  rw [requestJson, requestJson, Json.obj.injEq, List.cons.injEq, Prod.mk.injEq,
    Json.int.injEq] at h
  obtain ⟨⟨-, hid⟩, hpages⟩ := h
  have hmember : ∀ entry entry' : Channel × Page,
      (entry.1.key, pageJson entry.1 entry.2) = (entry'.1.key, pageJson entry'.1 entry'.2) →
        entry = entry' := by
    intro entry entry' heq
    rw [Prod.mk.injEq] at heq
    exact Prod.ext (Channel.key_inj heq.1) (pageJson_inj heq.2)
  have htable : r.pages = s.pages := Table.toList_inj ((List.map_inj_right hmember).1 hpages)
  cases r
  cases s
  cases hid
  cases htable
  rfl

/-- The text of a pull request, as it stands in the command. -/
def requestText (r : Request) : String :=
  (requestJson r).print

/-- Pull requests of one text are equal. -/
theorem requestText_inj (h : requestText r = requestText s) : r = s :=
  requestJson_inj (Json.print_inj (exact_requestJson r) (exact_requestJson s) h)

theorem exact_body_pull (account : Account) (r : Request) :
    ((Command.pull r).body account).Exact := by
  simp [Command.body, Command.members, exact_requestJson]

/-- Whole pull commands of one account have one text exactly when they ask for the same. -/
theorem text_pull_eq_iff :
    (Command.pull r).text account = (Command.pull s).text account ↔ r = s := by
  constructor
  · intro h
    have hbody := Json.print_inj (exact_body_pull account r) (exact_body_pull account s) h
    simp only [Command.body, Command.members, Json.obj.injEq, List.cons.injEq, Prod.mk.injEq,
      true_and, and_true] at hbody
    exact requestJson_inj hbody.2
  · rintro rfl
    rfl

/-- What a run takes for an idle reply: the server is sent the same text again exactly when the
reply moves no page. -/
theorem text_pull_next_eq_iff (returns : Returns) :
    (Command.pull (r.next returns)).text account = (Command.pull r).text account ↔
      r.Unmoved returns :=
  text_pull_eq_iff.trans Request.next_eq_self_iff

/-- Pull requests, however they were put together, are equal exactly when their texts are, and
exactly when they are for one run and have the same page on every channel. The order in which the
pages of different channels are added does not show in the text, and of several pages of one channel
the last one stands while the earlier ones leave no trace. -/
theorem requestText_faithful (r s : Request) :
    (r = s ↔ requestText r = requestText s) ∧
    (requestText r = requestText s ↔ r.runId = s.runId ∧ ∀ c, r.page? c = s.page? c) ∧
    (∀ pages pages' : List (Channel × Page), pages.Perm pages' → (pages.map Prod.fst).Nodup →
      requestText (r.withPages pages) = requestText (r.withPages pages')) ∧
    (∀ (before after : List (Channel × Page)) (c : Channel) (page : Page),
      c ∉ after.map Prod.fst →
        (r.withPages (before ++ (c, page) :: after)).page? c = some page) ∧
    ∀ (before later : List (Channel × Page)) (c : Channel) (page : Page),
      c ∈ later.map Prod.fst →
        requestText (r.withPages (before ++ (c, page) :: later)) =
          requestText (r.withPages (before ++ later)) := by
  refine ⟨⟨congrArg requestText, requestText_inj⟩, ⟨?_, ?_⟩, ?_, ?_, ?_⟩
  · intro h
    obtain rfl := requestText_inj h
    exact ⟨rfl, fun _ => rfl⟩
  · rintro ⟨hid, hpages⟩
    rw [Request.ext hid hpages]
  · intro pages pages' hperm hchannels
    rw [Request.withPages_perm hperm hchannels]
  · intro before after c page hc
    rw [Request.withPages_append]
    show (((r.withPages before).withPage c page).withPages after).page? c = some page
    rw [Request.page?_withPages_of_not_mem hc, Request.page?_withPage, if_pos rfl]
  · intro before later c page hc
    rw [Request.withPages_append, Request.withPages_append, Request.withPages_cons_of_mem hc]

/-- The first pulls of two runs are told apart. Orders and trades are added to one of them in either
order, and other trades that were added before leave no trace. -/
theorem requestText_faithful_orders :
    let first := Request.initial 7 100
    requestText first ≠ requestText (Request.initial (-7) 100) ∧
    requestText (first.withPages [(.orders, ⟨0, 50⟩), (.trades, ⟨12, 100⟩)]) =
      requestText (first.withPages [(.trades, ⟨12, 100⟩), (.orders, ⟨0, 50⟩)]) ∧
    (first.withPages [(.trades, ⟨3, 9⟩), (.orders, ⟨0, 50⟩), (.trades, ⟨12, 100⟩)]).page? .trades =
      some ⟨12, 100⟩ ∧
    requestText (first.withPages [(.trades, ⟨3, 9⟩), (.orders, ⟨0, 50⟩), (.trades, ⟨12, 100⟩)]) =
      requestText (first.withPages [(.orders, ⟨0, 50⟩), (.trades, ⟨12, 100⟩)]) := by
  obtain ⟨hequal, -, horder, hlast, htrace⟩ :=
    requestText_faithful (Request.initial 7 100) (Request.initial (-7) 100)
  refine ⟨fun h => absurd (hequal.2 h) (by decide), ?_, ?_, ?_⟩
  · exact horder _ _ (.swap _ _ _) (by decide)
  · exact hlast [(.trades, ⟨3, 9⟩), (.orders, ⟨0, 50⟩)] [] .trades ⟨12, 100⟩ (by decide)
  · exact htrace [] [(.orders, ⟨0, 50⟩), (.trades, ⟨12, 100⟩)] .trades ⟨3, 9⟩ (by decide)

example : requestText ((Request.empty (-3)).withPage .trades ⟨0, 100⟩) =
    "\x7b\"run-id\":-3,\"trades\":\x7b\"portfolio-name\":\"p\",\"start-index\":0," ++
      "\"length\":100,\"precision\":1\x7d\x7d" := by
  decide +kernel

end Facade

end LoadProbe
