import LoadProbe.Feed.Request

/-!
# Channels apart from each other

The results of a pull are read member by member: the slice of a channel out of the member at its
key, the lifecycle out of the member `status`, and nothing out of any other one. What is read at a
key is the same in two objects that agree there, so another value for the member of one channel,
however malformed, reaches neither the slices of the other channels nor what follows from them
(`Returns.ofResults_withMember`).
-/

namespace LoadProbe

/-! ## Members of an object -/

namespace Json

variable {key other : String}

/-- The members with `v?` at a key: in place of what the key held, or added, and without the key
when there is nothing to put there. -/
def withMember (key : String) (v? : Option Json) (members : List (String × Json)) :
    List (String × Json) :=
  match v? with
  | some v => insertMember key v members
  | none => members.filter fun m => m.1 != key

theorem lookup_filter_ne_self (key : String) (members : List (String × Json)) :
    (members.filter fun m => m.1 != key).lookup key = none := by
  rw [List.lookup_eq_none_iff]
  intro m hm
  rw [bne_comm]
  exact (List.mem_filter.1 hm).2

theorem lookup_filter_ne_of_ne (h : other ≠ key) (members : List (String × Json)) :
    (members.filter fun m => m.1 != key).lookup other = members.lookup other := by
  induction members with
  | nil => rfl
  | cons m rest ih =>
    obtain ⟨k, v⟩ := m
    by_cases hk : k = key
    · have hother : (other == k) = false := by simp [hk, h]
      rw [List.filter_cons_of_neg (by simp [hk]), List.lookup_cons, hother, ih]
    · rw [List.filter_cons_of_pos (by simp [hk]), List.lookup_cons, List.lookup_cons, ih]

/-- The key holds what was put there. -/
theorem get?_withMember_self (key : String) (v? : Option Json) (members : List (String × Json)) :
    (obj (withMember key v? members)).get? key = v? := by
  cases v? with
  | none => exact lookup_filter_ne_self key members
  | some v => exact lookup_insertMember_self key v members

/-- Every other key holds what it held. -/
theorem get?_withMember_of_ne (h : other ≠ key) (v? : Option Json)
    (members : List (String × Json)) :
    (obj (withMember key v? members)).get? other = (obj members).get? other := by
  cases v? with
  | none => exact lookup_filter_ne_of_ne h members
  | some v => exact lookup_insertMember_of_ne h v members

end Json

namespace Feed

/-! ## What is read at a key -/

theorem Channel.key_ne_status (c : Channel) : c.key ≠ "status" := by
  cases c <;> decide

namespace Returns

variable {returns returns' : Returns} {results results' : Json} {c : Channel}

theorem get?_slices_ofResults (results : Json) (c : Channel) :
    (ofResults results).slices.get? c = (results.get? c.key).map (slice c) := by
  simp only [ofResults, Table.get?_ofFn]

/-- The status is read at its key. -/
theorem status_congr (h : results.get? "status" = results'.get? "status") :
    (ofResults results).status = (ofResults results').status := by
  simp only [ofResults, status?, h]

/-- The slice of a channel is read at the key of the channel. -/
theorem slices_congr (h : results.get? c.key = results'.get? c.key) :
    (ofResults results).slices.get? c = (ofResults results').slices.get? c := by
  rw [get?_slices_ofResults, get?_slices_ofResults, h]

/-- Results that agree at the status and at the keys of all channels bring the same. -/
theorem ofResults_congr (hstatus : results.get? "status" = results'.get? "status")
    (hkeys : ∀ c : Channel, results.get? c.key = results'.get? c.key) :
    ofResults results = ofResults results' := by
  have hslices : (ofResults results).slices = (ofResults results').slices :=
    Table.ext fun c => slices_congr (hkeys c)
  show mk (ofResults results).status (ofResults results).slices = _
  rw [status_congr hstatus, hslices]

theorem lifecycle_congr (h : returns.status = returns'.status) :
    returns.lifecycle = returns'.lifecycle := by
  simp only [lifecycle, h]

theorem resumeIndex_congr (h : returns.slices.get? c = returns'.slices.get? c) :
    returns.resumeIndex c = returns'.resumeIndex c := by
  simp only [resumeIndex, h]

end Returns

/-! ## What follows from it -/

namespace Request

variable {returns returns' : Returns} {c : Channel}

theorem page?_next_congr (r : Request) (h : returns.resumeIndex c = returns'.resumeIndex c) :
    (r.next returns).page? c = (r.next returns').page? c := by
  rw [page?_next, page?_next, h]

theorem page?_drain_congr (r : Request) (grids : Bool)
    (h : returns.resumeIndex c = returns'.resumeIndex c) :
    (r.drain returns grids).page? c = (r.drain returns' grids).page? c := by
  cases grids <;>
    simp only [drain, page?, Bool.false_eq_true, if_false, if_true, Table.get?_insert,
      Table.get?_filterMap, h]

end Request

/-- Whatever is put at the key of a channel, or whether the key is removed, nothing but the slice
of this channel changes: the lifecycle, and with it how the run ended, and the slices of all other
channels stay the same, and the next request and the last one have the same pages for them. A member
at a key that is no channel's and not the status changes nothing at all. -/
theorem Returns.ofResults_withMember (members : List (String × Json)) (v? : Option Json) :
    let before := ofResults (.obj members)
    (∀ c : Channel,
      let after := ofResults (.obj (Json.withMember c.key v? members))
      after.slices.get? c = v?.map (slice c) ∧
      after.status = before.status ∧ after.lifecycle = before.lifecycle ∧
      after.lifecycle.terminal? = before.lifecycle.terminal? ∧
      (∀ d ≠ c, after.slices.get? d = before.slices.get? d ∧
        after.resumeIndex d = before.resumeIndex d) ∧
      ∀ (r : Request) (grids : Bool),
        ((r.next after).runId = (r.next before).runId ∧
          ∀ d ≠ c, (r.next after).page? d = (r.next before).page? d) ∧
        ((r.drain after grids).runId = (r.drain before grids).runId ∧
          ∀ d ≠ c, (r.drain after grids).page? d = (r.drain before grids).page? d)) ∧
    ∀ key, key ≠ "status" → (∀ c : Channel, key ≠ c.key) →
      ofResults (.obj (Json.withMember key v? members)) = before := by
  intro before
  refine ⟨fun c => ?_, fun key hstatus hkeys => ?_⟩
  · intro after
    have hstatus : after.status = before.status :=
      status_congr (Json.get?_withMember_of_ne c.key_ne_status.symm v? members)
    have hlifecycle : after.lifecycle = before.lifecycle := lifecycle_congr hstatus
    have hslices : ∀ d ≠ c, after.slices.get? d = before.slices.get? d := fun d hd =>
      slices_congr (Json.get?_withMember_of_ne (fun h => hd (Channel.key_inj h)) v? members)
    have hresume : ∀ d ≠ c, after.resumeIndex d = before.resumeIndex d := fun d hd =>
      resumeIndex_congr (hslices d hd)
    refine ⟨?_, hstatus, hlifecycle, by rw [hlifecycle], fun d hd => ⟨hslices d hd, hresume d hd⟩,
      fun r grids => ⟨⟨rfl, fun d hd => ?_⟩, rfl, fun d hd => ?_⟩⟩
    · rw [get?_slices_ofResults, Json.get?_withMember_self]
    · exact r.page?_next_congr (hresume d hd)
    · exact r.page?_drain_congr grids (hresume d hd)
  · exact ofResults_congr (Json.get?_withMember_of_ne hstatus.symm v? members) fun c =>
      Json.get?_withMember_of_ne (hkeys c).symm v? members

/-- The trades of these results become a text: the portfolios still go on at item 2, and the run has
ended normally. -/
theorem Returns.ofResults_withMember_trades :
    let results : List (String × Json) :=
      [("portfolios", .obj [("NextIndex", .int 2), ("Portfolios", .arr [.int 5, .int 7])]),
        ("status", .obj [("LifeCycleStatus", .str "NormalExit")]),
        ("trades", .obj [("NextIndex", .int 3), ("Trades", .arr [.null])])]
    let broken := ofResults (.obj (Json.withMember "trades" (some (.str "oops")) results))
    (Channel.portfolios ≠ .trades ∧ broken.resumeIndex .portfolios = 2 ∧
      broken.lifecycle.terminal? = some .success ∧ broken.resumeIndex .trades = 0) ∧
    ("unrelated" ≠ "status" ∧ (∀ c : Channel, "unrelated" ≠ c.key) ∧
      ofResults (.obj (Json.withMember "unrelated" (some .null) results)) =
        ofResults (.obj results)) := by
  intro results broken
  have hne : Channel.portfolios ≠ .trades := nofun
  have hunrelated : ∀ c : Channel, "unrelated" ≠ c.key := by
    intro c
    cases c <;> decide
  obtain ⟨hslice, -, -, hterminal, hothers, -⟩ :=
    (ofResults_withMember results (some (.str "oops"))).1 .trades
  refine ⟨⟨hne, (hothers .portfolios hne).2, hterminal, ?_⟩, by decide, hunrelated, ?_⟩
  · have hbroken : broken.slices.get? .trades = some (slice .trades (.str "oops")) := hslice
    rw [resumeIndex, hbroken]
    rfl
  · exact (ofResults_withMember results (some .null)).2 "unrelated" (by decide) hunrelated

end Feed

end LoadProbe
