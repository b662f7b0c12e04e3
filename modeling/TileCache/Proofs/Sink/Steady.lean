import TileCache.Proofs.Sink.Agreement
import TileCache.Proofs.Sink.Ledger
import TileCache.Proofs.Sink.OneByOne
import TileCache.Proofs.Sink.Pieces

/-!
# Pulls that never break off

A pull breaks off for two reasons.  The bytes for a tile may be too many to be counted; but with no
more than four bytes for each pixel this is never so, whatever the size of the image
(`IsFor.byteCount_eq`), and a buffer is then refused or there is one (`buffer_eq_error_iff`).  And
a row may not end inside a buffer; but between whole regions for one image this does not happen
(`Sound.exists_served`), and they stay whole when the sources write into buffers and do not replace
them (`sturdy_run`).  So in such runs no pull into a region for the image ever breaks off, however
its steps and those of others are mixed (`steady_run`).

What a move does to the pulls under way, apart from steps of a pull, is in `map_pulls_step`.
-/

set_option autoImplicit false

namespace TileCache

variable {info : ImageInfo} {rect cell : Rect} {r s : Region} {source : Source}

/-! ## Counting bytes -/

theorem Rect.area_le (r : Rect) : r.area ≤ 2147483647 * 2147483647 := by
  cases he : r.isEmpty with
  | true =>
    rw [area, he]
    exact Nat.zero_le _
  | false =>
    rw [area_of_nonempty he]
    have hwidth := r.width.upper
    have hheight := r.height.upper
    exact Nat.mul_le_mul (by omega) (by omega)

namespace Region

/-- With up to four bytes for each pixel, all bytes can be counted. -/
theorem IsFor.count_lt (h : r.IsFor info) (hfour : info.bytesPerPixel ≤ 4) (rect : Rect) :
    rect.area * r.pixelSize < 0x10000000000000000 := by
  rw [h.2]
  exact Nat.lt_of_le_of_lt (Nat.mul_le_mul rect.area_le hfour) (by decide)

/-- **A buffer is refused if nothing of the image is asked for, or too much.** -/
theorem IsFor.buffer_eq_error_iff (h : r.IsFor info) (hfour : info.bytesPerPixel ≤ 4)
    {setback : Setback} :
    r.buffer rect = .error setback ↔
      ((rect.intersect info.bounds).isEmpty = true ∧
        setback = .refused (.outsideImage rect info.bounds)) ∨
        (rect.intersect info.bounds).isEmpty = false ∧ ¬ Fits info rect ∧
          setback = .refused (.tooLarge
            ((rect.intersect info.bounds).area * info.bytesPerPixel) maxRegionBytes) := by
  have hcount := h.count_lt hfour (rect.intersect r.bounds)
  cases setback with
  | refused error =>
    rw [buffer_eq_refused_iff, and_iff_right hcount, h.1, h.2, Fits, Nat.not_le]
    simp only [Setback.refused.injEq]
  | faulted fault =>
    rw [buffer_eq_faulted_iff]
    simp only [Nat.not_le.2 hcount, false_and, and_false, reduceCtorEq, or_self]

end Region

/-- A move that is no step of a pull, and neither begins nor drops one. -/
def Move.LeavesPulls : Move → Prop
  | .openPull _ _ _ | .advance _ _ | .dropPull _ => False
  | .begin _ | .finish _ _ | .drop _ | .invalidate | .detach | .shutdown => True

namespace Engine

/-! ## Whole buffers -/

/-- The buffer holds the part of the cell that lies in the image, with all the bytes for it. -/
structure Sturdy (info : ImageInfo) (cell : Rect) (r : Region) : Prop where
  frames : Frames info cell r
  isWhole : r.IsWhole

theorem sturdy_of_buffer (h : r.IsFor info) (hb : r.buffer cell = .ok s) : Sturdy info cell s :=
  ⟨frames_of_buffer h hb, Region.isWhole_of_buffer hb⟩

theorem inborn_sturdy (info : ImageInfo) : Inborn info (Sturdy info) :=
  ⟨fun hb => sturdy_of_buffer ⟨rfl, rfl⟩ hb, fun h hb => sturdy_of_buffer h.frames.isFor hb⟩

section

variable {config : Config} {hasRuntime withMask : Bool} {sink : Sink} {moves : List Move}

/-- **In every run whose sources write into buffers, all buffers stay whole.** -/
theorem sturdy_run (hs : Sink.create info config hasRuntime withMask = .ok sink)
    (hk : KeepBuffers moves) :
    ((ofSink sink hasRuntime).run moves).Carries (Buffered (Sturdy info))
      (fun _ c => Sturdy info c.job.area c.job.region) :=
  buffered_run hs (inborn_sturdy info) fun n source hm _ _ beganAt h =>
    ⟨frames_stamped h.frames (hk n source hm).keepsFrame beganAt,
      (hk n source hm).isWhole_stamped h.isWhole beganAt⟩

end

variable {e : Engine} {move : Move} {id amid : Nat} {pull : Pull}

/-- **Between whole regions for one image, a step of a pull goes on.** -/
theorem Sound.exists_served (hs : e.Sound) (hfour : e.sink.cache.info.bytesPerPixel ≤ 4)
    (hsuited : e.sink.cache.All (Suited e.sink.cache.info))
    (htiles : e.sink.cache.All (Buffered (Sturdy e.sink.cache.info)))
    (hg : ∀ cell, Sink.IsDue pull cell → e.sink.cache.size.IsCell cell)
    (hfor : pull.out.IsFor e.sink.cache.info) (hwhole : pull.out.IsWhole) (amid : Nat) :
    ∃ s next job?, e.sink.serve pull amid = (s, .went next, job?) := by
  have serving := Sink.serving e.sink pull amid
  generalize hserve : e.sink.serve pull amid = r at serving
  cases serving with
  | idle _ => exact ⟨_, _, _, rfl⟩
  | waits _ _ => exact ⟨_, _, _, rfl⟩
  | zeroed _ _ => exact ⟨_, _, _, rfl⟩
  | copied _ _ _ _ => exact ⟨_, _, _, rfl⟩
  | @broke _ s tile? cell cells job? fault due =>
    exfalso
    rw [Sink.serve_of_due due] at hserve
    by_cases hv : ∃ t region, tile? = some t ∧ t.region? = some region ∧
        t.isValid s.generation = true
    · obtain ⟨t, region, rfl, hr, hv⟩ := hv
      obtain ⟨⟨n, ht⟩, -⟩ := due.tile_area hs.cache hg rfl
      have hsturdy := (hs.all_of_asks (durable_buffered (inborn_sturdy _)) htiles due.asks).1
        n t ht region hr
      obtain ⟨out, hcopy⟩ := Region.exists_copyFrom hwhole hsturdy.isWhole
        (hfor.2.trans hsturdy.frames.isFor.2.symm) (t.area.intersect pull.out.valid)
      rw [Sink.answer_of_valid hr hv, hcopy] at hserve
      cases (Prod.mk.inj (Prod.mk.inj hserve).2).1
    · have hn : ∀ t, tile? = some t →
          ¬ (∃ region, t.region? = some region) ∨ t.isValid s.generation = false := by
        intro t ht
        rw [Bool.eq_false_iff, ← not_and_or]
        rintro ⟨⟨region, hr⟩, hval⟩
        exact hv ⟨t, region, ht, hr, hval⟩
      obtain ⟨out, hpaint⟩ :=
        Region.exists_paint hwhole (Sink.blankArea tile? cell pull.out) 0
      rw [Sink.answer_of_not_valid hn, hpaint] at hserve
      cases (Prod.mk.inj (Prod.mk.inj hserve).2).1
  | @stopped _ _ _ cell fault asked =>
    -- the bytes of a cell can always be counted
    exfalso
    have hlacks := Cache.lacksBuffer_of_broke (congrArg Prod.snd asked)
    have hbuffer := hlacks.buffer_eq rfl hsuited
    have hcount := (Region.buffer_eq_faulted_iff.1 hbuffer).2.1
    exact absurd hcount
      (Nat.not_le.2 (Region.IsFor.count_lt (r := .empty _) ⟨rfl, rfl⟩ hfour _))

/-! ## The pulls under way -/

theorem map_pulls_wake {α : Type} {f : Pull → α} (hf : ∀ p painted, f (Pull.wake p painted) = f p)
    (e : Engine) (client : Client) (painted : Bool) :
    (e.wake client painted).pulls.map (fun np => f np.2) = e.pulls.map fun np => f np.2 := by
  cases client with
  | nobody => rfl
  | pull id =>
    rw [Engine.wake, List.map_map]
    refine List.map_congr_left fun np _ => ?_
    dsimp only [Function.comp]
    split
    · exact hf _ _
    · rfl

theorem map_pulls_drop {α : Type} {f : Pull → α} (hf : ∀ p painted, f (Pull.wake p painted) = f p)
    (e : Engine) (id : Nat) :
    (e.drop id).pulls.map (fun np => f np.2) = e.pulls.map fun np => f np.2 := by
  rw [drop]
  cases e.computations.lookup id with
  | none => rfl
  | some c => cases hb : c.beganAt? <;> simp only [hb] <;> exact map_pulls_wake hf _ _ _

/-- **What wakes pulls up is all that reaches them from elsewhere.** -/
theorem map_pulls_step {α : Type} {f : Pull → α} (hf : ∀ p painted, f (Pull.wake p painted) = f p)
    (hm : move.LeavesPulls) :
    (e.step move).pulls.map (fun np => f np.2) = e.pulls.map fun np => f np.2 := by
  cases move with
  | openPull _ _ _ => cases hm
  | advance _ _ => cases hm
  | dropPull _ => cases hm
  | begin id => rfl
  | finish id source =>
    cases hc : e.computations.lookup id with
    | none => rw [step_finish_of_none source hc]
    | some c =>
      cases hb : c.beganAt? with
      | none => rw [step_finish_of_queued source hc hb]
      | some beganAt =>
        rw [step_finish_of_some source hc, finish, hc]
        simp only [hb]
        split <;> exact map_pulls_wake hf _ _ _
  | drop id => exact map_pulls_drop hf e id
  | invalidate => rfl
  | detach => rfl
  | shutdown =>
    have fold : ∀ (ids : List Nat) (d : Engine),
        (ids.foldl drop d).pulls.map (fun np => f np.2) = d.pulls.map fun np => f np.2 := by
      intro ids
      induction ids with
      | nil => exact fun _ => rfl
      | cons id ids ih => exact fun d => (ih (d.drop id)).trans (map_pulls_drop hf d id)
    exact fold _ e

/-- Do all pulls of the moves fill regions for the image? -/
def PullInto (info : ImageInfo) (moves : List Move) : Prop :=
  ∀ rect out isRegion, Move.openPull rect out isRegion ∈ moves → out.IsFor info

theorem PullInto.of_append {before after : List Move} (h : PullInto info (before ++ after)) :
    PullInto info before :=
  fun rect out isRegion hm => h rect out isRegion (List.mem_append_left _ hm)

/-- A region stays one for the image while a pull fills it. -/
theorem isFor_step (h : ∀ np ∈ e.pulls, np.2.out.IsFor info)
    (hm : ∀ rect out isRegion, move = .openPull rect out isRegion → out.IsFor info) :
    ∀ np ∈ (e.step move).pulls, np.2.out.IsFor info := by
  by_cases hq : move.LeavesPulls
  · intro np hnp
    have hout := List.mem_map_of_mem (f := fun np : Nat × Pull => np.2.out) hnp
    rw [map_pulls_step (f := Pull.out) out_wake hq] at hout
    obtain ⟨mp, hmp, heq⟩ := List.mem_map.1 hout
    exact heq ▸ h mp hmp
  · cases move with
    | openPull rect out hr =>
      cases ho : e.openPull rect out with
      | error error => rwa [step_openPull_of_error hr ho]
      | ok dn =>
        obtain ⟨out', hb, hd⟩ := openPull_eq_ok ho
        rw [step_openPull_of_ok hr ho, hd]
        exact List.forall_mem_cons.2 ⟨(suited_of_buffer (hm _ _ _ rfl) hb).1, h⟩
    | advance id amid =>
      intro np hnp
      change np ∈ (e.advance id amid).1.pulls at hnp
      rw [advance] at hnp
      cases hf : e.pulls.lookup id with
      | none =>
        rw [hf] at hnp
        exact h np hnp
      | some pull =>
        rw [hf] at hnp
        dsimp only at hnp
        split at hnp
        · exact h np (mem_pulls_dropPull hnp)
        · rcases mem_pulls_carryOn hnp with hmem | hwent
          · exact h np (mem_pulls_dropPull hmem)
          · have serving := Sink.serving e.sink pull amid
            generalize e.sink.serve pull amid = r at hwent serving
            obtain ⟨s, served, job?⟩ := r
            obtain rfl : served = .went np.2 := hwent
            have hfor := h _ (mem_of_lookup hf)
            rw [out_of_serving serving]
            exact ⟨hfor.1, hfor.2⟩
    | dropPull id => exact fun np hnp => h np (mem_pulls_dropPull hnp)
    | begin _ => exact absurd trivial hq
    | finish _ _ => exact absurd trivial hq
    | drop _ => exact absurd trivial hq
    | invalidate => exact absurd trivial hq
    | detach => exact absurd trivial hq
    | shutdown => exact absurd trivial hq

section

variable {config : Config} {hasRuntime withMask : Bool} {sink : Sink} {moves : List Move}

/-- Pulls into regions for the image have regions for the image. -/
theorem isFor_run (sink : Sink) (hasRuntime : Bool) (hp : PullInto info moves) :
    ∀ np ∈ ((ofSink sink hasRuntime).run moves).pulls, np.2.out.IsFor info := by
  induction moves using List.reverseRecOn with
  | nil => exact fun np hnp => absurd hnp List.not_mem_nil
  | append_singleton moves move ih =>
    rw [run_concat]
    exact isFor_step (ih hp.of_append) fun rect out isRegion hm =>
      hp rect out isRegion (List.mem_append_right _ (List.mem_singleton.2 hm.symm))

/-- The region of a pull stays whole. -/
theorem wholePulls_run (hs : Sink.create info config hasRuntime withMask = .ok sink)
    (moves : List Move) :
    ∀ np ∈ ((ofSink sink hasRuntime).run moves).pulls, np.2.out.IsWhole := by
  induction moves using List.reverseRecOn with
  | nil => exact fun np hnp => absurd hnp List.not_mem_nil
  | append_singleton moves move ih =>
    rw [run_concat]
    refine (sound_run hs moves).1.forall_pulls_step (P := fun p => p.out.IsWhole) ih
      (fun _ hb => Region.isWhole_of_buffer hb) (fun painted hp => ?_) ?_
    · rw [out_wake]
      exact hp
    intro id amid p next s job? _ hp serving
    cases serving with
    | idle _ => exact hp
    | waits _ _ => exact hp
    | zeroed _ painted => exact hp.paint painted
    | copied _ _ _ copy => exact hp.copyFrom copy

/-- A pull whose step goes on does not break off. -/
theorem faultsBy_of_served (h : ∀ pull, e.pulls.lookup id = some pull →
      ∃ s next job?, e.sink.serve pull amid = (s, .went next, job?)) :
    e.faultsBy (.advance id amid) = [] := by
  rw [faultsBy, advance]
  cases hf : e.pulls.lookup id with
  | none => rfl
  | some pull =>
    obtain ⟨s, next, job?, hserve⟩ := h pull hf
    dsimp only
    split
    · rfl
    · rw [hserve, carryOn]
      dsimp only
      split <;> rfl

/-- **No pull ever breaks off**, in any run of a new sink whose sources write into buffers, if a
pixel has no more than four bytes and the pulls fill regions for the image. -/
theorem steady_run (hs : Sink.create info config hasRuntime withMask = .ok sink)
    (hfour : info.bytesPerPixel ≤ 4) (hk : KeepBuffers moves) (hp : PullInto info moves) :
    collect faultsBy (ofSink sink hasRuntime) moves = [] := by
  induction moves using List.reverseRecOn with
  | nil => rfl
  | append_singleton moves move ih =>
    have hk' : KeepBuffers moves := fun n source hm => hk n source (List.mem_append_left _ hm)
    rw [collect_concat, ih hk' hp.of_append, List.nil_append]
    cases move with
    | advance id amid =>
      refine faultsBy_of_served fun pull hf => ?_
      obtain ⟨hsound, -⟩ := sound_run hs moves
      have hinfo := info_run hs moves
      have hmem := mem_of_lookup hf
      have hfor := isFor_run sink hasRuntime hp.of_append _ hmem
      have hwhole := wholePulls_run hs moves _ hmem
      have hsuited := (suited_run hs hk'.keepImages).tiles
      have htiles := (sturdy_run hs hk').tiles
      rw [← hinfo] at hfour hfor hsuited htiles
      exact hsound.exists_served hfour hsuited htiles (hsound.onGrid _ hmem) hfor hwhole amid
    | openPull _ _ _ => rfl
    | dropPull _ => rfl
    | begin _ => rfl
    | finish _ _ => rfl
    | drop _ => rfl
    | invalidate => rfl
    | detach => rfl
    | shutdown => rfl

end

end Engine

end TileCache
