import TileCache.Proofs.Cache.Requests
import TileCache.Proofs.Cache.Strict
import TileCache.Proofs.Sink.Notices
import TileCache.Proofs.Sink.Ownership

/-!
# Sinks that are over

With the last channel of a sink its tiles and its index go for good (`Sink.Over`), and what was
still being computed changes nothing any more when it ends.

* `step_of_over`: what every move leaves of a sink that is over, and `sink_step_of_over`: what the
  end of a computation does.
* `perm_endedBy`: a computation that ends is no longer under way, and the others are;
  `perm_endedBy_of_over`: in a sink that is over, this is all that becomes of them.
* `settleStrict_eq`: no buffer that comes back is looked for in a place that is not there.
* `attached_step`: a sink is let go by the drop of a channel only.
-/

set_option autoImplicit false

namespace TileCache

/-- `Cache.hasPainted`, which insists that there is a tile `id`. -/
def Cache.hasPaintedStrict (c : Cache) (id : Nat) : Option Bool :=
  if !c.isOpen then some false else c.tiles[id]?.map (·.isPainted)

namespace Sink

/-- `Sink.settle` with the assertions of the operations that it uses. -/
def settleStrict (s : Sink) (job : Job) (beganAt : Nat) (answer : Answer) : Option (Sink × Bool) :=
  let region := answer.stamped beganAt
  match answer.ending with
  | .completed => do
    let cache ← s.cache.completeStrict job.tile region true
    let painted ← cache.hasPaintedStrict job.tile
    some ({ s with cache }, painted)
  | .failed _ => do
    let cache ← s.cache.completeStrict job.tile region false
    let painted ← cache.hasPaintedStrict job.tile
    some ({ s with cache }, painted)
  | .broken => (s.cache.abandonStrict job.tile region).map fun cache => ({ s with cache }, false)

/-- The sink has given up its tiles. -/
structure Over (s : Sink) : Prop where
  isOpen : s.cache.isOpen = false
  tiles : s.cache.tiles = #[]
  index : s.cache.index = .empty

/-- A sink that is over has nothing to give up. -/
theorem Over.close_eq {s : Sink} (h : s.Over) : s.cache.close = s.cache := by
  obtain ⟨ho, ht, hi⟩ := h
  rw [Cache.close, ← ho, ← ht, ← hi]

end Sink

/-- Does the move do nothing but end computations? -/
def Move.Ends : Move → Prop
  | .finish _ _ | .drop _ | .shutdown => True
  | .openPull _ _ _ | .advance _ _ | .dropPull _ | .begin _ | .invalidate | .detach => False

namespace Engine

variable {e : Engine} {move : Move} {id : Nat}

/-! ## Sinks that are over -/

/-- What every move leaves of a sink that is over. -/
theorem step_of_over (hs : e.Sound) (h : e.sink.Over) (move : Move) :
    (e.step move).sink.cache = e.sink.cache ∧ (e.step move).jobs.Sublist e.jobs := by
  refine (step_induction (I := fun d => d.Sound ∧ d.sink.cache = e.sink.cache ∧
    d.jobs.Sublist e.jobs) (fun {d f} hc hd => ?_) ⟨hs, rfl, List.Sublist.refl _⟩).2
  obtain ⟨hsound, hcache, hjobs⟩ := hd
  have hover : d.sink.Over :=
    ⟨hcache ▸ h.isOpen, hcache ▸ h.tiles, hcache ▸ h.index⟩
  have hsame : f.sink.cache = d.sink.cache := by
    have hsink := hc.sinkChange
    generalize f.sink = s at hsink ⊢
    cases hsink with
    | served _ _ serving =>
      rcases serving.asks with ⟨-, hsame, -⟩ | ⟨cell, acquired, -, hacq, -⟩
      · exact hsame
      · rw [Cache.acquire_of_closed hover.isOpen] at hacq
        exact (Prod.mk.inj hacq).1.symm
    | completed _ _ _ => exact Cache.complete_of_closed hover.isOpen _ _ _
    | abandoned _ _ => exact Cache.abandon_of_closed hover.isOpen _ _
    | closed => exact hover.close_eq
    | same => rfl
    | invalidated _ => rfl
    | detached _ => rfl
  exact ⟨hsound.change hc, hsame.trans hcache,
    (jobs_sublist_of_closed hsound hc (hsame ▸ hover.isOpen)).trans hjobs⟩

/-- The end of a computation changes nothing in a sink that is over. -/
theorem sink_step_of_over (h : e.sink.Over) (hm : move.Ends) : (e.step move).sink = e.sink := by
  refine step_induction (I := fun d => d.sink = e.sink) (fun {d f} hc hd => ?_) rfl
  have hopen : d.sink.cache.isOpen = false := hd ▸ h.isOpen
  rw [← hd]
  have hsink := hc.sinkChange
  generalize f.sink = s at hsink ⊢
  cases hsink with
  | completed _ _ _ => rw [Cache.complete_of_closed hopen]
  | abandoned _ _ => rw [Cache.abandon_of_closed hopen]
  | same => rfl
  | served isMove _ _ => exact (isMove ▸ hm).elim
  | invalidated isMove => exact (isMove ▸ hm).elim
  | detached _ isMove => exact (isMove ▸ hm).elim
  | closed isMove => exact (isMove ▸ hm).elim

/-- A sink that is over gives no notice. -/
theorem notified_step_of_over (hs : e.Sound) (h : e.sink.Over) (move : Move) :
    (e.step move).notified = e.notified := by
  by_cases hm : ∃ n source, move = .finish n source
  · obtain ⟨n, source, rfl⟩ := hm
    cases hf : e.computations.lookup n with
    | none => rw [step_finish_of_none source hf]
    | some c =>
      cases hb : c.beganAt? with
      | none => rw [step_finish_of_queued source hf hb]
      | some beganAt =>
        have hpainted := painted_settle hs hf beganAt (source c.job.region)
        rw [step_finish_of_some source hf, Engine.finish, hf]
        simp only [hb]
        rw [wake_eq, if_neg fun hn => absurd (hpainted.1 hn.2.1).1 (by simp [h.isOpen])]
        rfl
  · exact notified_of_not_finish fun n source hn => hm ⟨n, source, hn⟩

/-! ## Computations that end -/

/-- The numbers of the computations that are under way. -/
def numbers (e : Engine) : List Nat := e.computations.map (·.1)

/-- The computations that the move puts to an end.  One that has not begun does not end by
itself. -/
def endedBy (e : Engine) : Move → List Nat
  | .finish id _ =>
    match (e.computations.lookup id).bind (·.beganAt?) with
    | none => []
    | some _ => [id]
  | .drop id => if (e.computations.lookup id).isSome then [id] else []
  | .shutdown => e.numbers
  | .openPull _ _ _ | .advance _ _ | .dropPull _ | .begin _ | .invalidate | .detach => []

theorem perm_numbers_forget {c : Computation} (hf : e.computations.lookup id = some c) :
    (id :: (e.forget id).numbers).Perm e.numbers :=
  ((perm_of_lookup hf).map Prod.fst).symm

/-- The end of the runtime leaves none under way. -/
theorem computations_foldl_drop : ∀ (cs : List (Nat × Computation)) {e : Engine},
    e.computations = cs → ((cs.map (·.1)).foldl Engine.drop e).computations = []
  | [], _, hc => hc
  | (_, _) :: cs, _, hc => computations_foldl_drop cs (computations_drop_of_cons hc)

/-- **Those that end are no longer under way, and no others go with them.** -/
theorem perm_endedBy (hm : move.Ends) :
    (e.endedBy move ++ (e.step move).numbers).Perm e.numbers := by
  cases move with
  | finish id source =>
    rw [endedBy]
    cases hf : e.computations.lookup id with
    | none =>
      rw [step_finish_of_none source hf]
      exact .refl _
    | some c =>
      rw [Option.bind_some]
      cases hb : c.beganAt? with
      | none =>
        rw [step_finish_of_queued source hf hb]
        exact .refl _
      | some beganAt =>
        rw [step_finish_of_some source hf, numbers, computations_finish hf hb]
        exact perm_numbers_forget hf
  | drop id =>
    rw [endedBy]
    show (_ ++ (e.drop id).numbers).Perm _
    cases hf : e.computations.lookup id with
    | none =>
      rw [drop, hf]
      exact .refl _
    | some c =>
      rw [numbers, computations_drop hf]
      exact perm_numbers_forget hf
  | shutdown =>
    have hnone : (e.step .shutdown).numbers = [] :=
      congrArg (List.map _) (computations_foldl_drop e.computations rfl)
    rw [hnone, List.append_nil]
    exact .refl _
  | openPull _ _ _ | advance _ _ | dropPull _ | begin _ | invalidate | detach => exact hm.elim

/-- A sink that is over hands out no jobs. -/
theorem job?_of_over (h : e.sink.Over) (pull : Pull) (amid : Nat) :
    (e.sink.serve pull amid).2.2 = none := by
  have hasks := (Sink.serving e.sink pull amid).asks
  rcases hasks with ⟨-, -, hj⟩ | ⟨cell, acquired, -, hacq, hj⟩
  · exact hj
  · rw [Cache.acquire_of_closed h.isOpen] at hacq
    obtain rfl := (Prod.mk.inj hacq).2
    exact hj

/-- **No computation is begun for a sink that is over**: those under way end, each once. -/
theorem perm_endedBy_of_over (h : e.sink.Over) (move : Move) :
    (e.endedBy move ++ (e.step move).numbers).Perm e.numbers := by
  cases move with
  | finish _ _ | drop _ | shutdown => exact perm_endedBy trivial
  | openPull rect out hr =>
    cases ho : e.openPull rect out with
    | error error =>
      rw [step_openPull_of_error hr ho]
      exact .refl _
    | ok dn =>
      obtain ⟨out', -, hd⟩ := openPull_eq_ok ho
      rw [step_openPull_of_ok hr ho, hd]
      exact .refl _
  | advance id amid =>
    have hsame : (e.advance id amid).1.computations = e.computations := by
      rw [advance]
      cases e.pulls.lookup id with
      | none => rfl
      | some pull =>
        dsimp only
        split
        · rfl
        · rcases computations_carryOn (e.dropPull id) id (e.clientOf id)
            (e.sink.serve pull amid) with hc | ⟨job, hj, -⟩
          · exact hc
          · rw [job?_of_over h] at hj
            cases hj
    exact .of_eq (congrArg (List.map _) hsame)
  | begin id =>
    refine .of_eq ?_
    show ((e.begin id).computations.map (·.1)) = _
    rw [begin, List.map_map]
    refine List.map_congr_left fun nc _ => ?_
    dsimp only [Function.comp]
    split <;> rfl
  | dropPull _ | invalidate | detach => exact .refl _

/-! ## Buffers that come back -/

theorem hasPaintedStrict_eq {c : Cache} (h : c.isOpen = true → id < c.tiles.size) :
    c.hasPaintedStrict id = some (c.hasPainted id) := by
  rw [Cache.hasPaintedStrict, Cache.hasPainted]
  cases ho : c.isOpen with
  | false => rfl
  | true =>
    rw [Array.getElem?_eq_getElem (h ho)]
    rfl

/-- **No buffer comes back to a place that is not there**, whether the sink is over or not. -/
theorem settleStrict_eq (hs : e.Sound) {c : Computation} (hf : e.computations.lookup id = some c)
    (beganAt : Nat) (answer : Answer) :
    e.sink.settleStrict c.job beganAt answer = some (e.sink.settle c.job beganAt answer) ∧
      ∀ region, e.sink.cache.abandonStrict c.job.tile region =
        some (e.sink.cache.abandon c.job.tile region) := by
  have habandon : ∀ region, e.sink.cache.abandonStrict c.job.tile region =
      some (e.sink.cache.abandon c.job.tile region) := by
    intro region
    by_cases ho : e.sink.cache.isOpen = true
    · obtain ⟨t, ht, hc, -⟩ := hs.exists_tile ho hf
      exact Cache.abandonStrict_eq ht hc region
    · rw [Cache.abandonStrict, Cache.abandon, if_pos (by simpa using ho),
        if_pos (by simpa using ho)]
  have hcomplete : ∀ region succeeded,
      e.sink.cache.completeStrict c.job.tile region succeeded =
          some (e.sink.cache.complete c.job.tile region succeeded) ∧
        (e.sink.cache.complete c.job.tile region succeeded).hasPaintedStrict c.job.tile =
          some ((e.sink.cache.complete c.job.tile region succeeded).hasPainted c.job.tile) := by
    intro region succeeded
    by_cases ho : e.sink.cache.isOpen = true
    · obtain ⟨t, ht, hc, -⟩ := hs.exists_tile ho hf
      refine ⟨Cache.completeStrict_eq ht hc region succeeded, hasPaintedStrict_eq fun _ => ?_⟩
      rw [Cache.tiles_size_complete]
      exact Cache.lt_size ht
    · have hclosed : e.sink.cache.isOpen = false := by simpa using ho
      rw [Cache.complete_of_closed hclosed]
      refine ⟨?_, hasPaintedStrict_eq fun hn => absurd hn ho⟩
      rw [Cache.completeStrict, hclosed]
      rfl
  refine ⟨?_, habandon⟩
  rw [Sink.settleStrict, Sink.settle]
  cases answer.ending with
  | completed =>
    simp only [(hcomplete _ true).1, (hcomplete _ true).2, Option.bind_eq_bind, Option.bind_some]
  | failed error =>
    simp only [(hcomplete _ false).1, (hcomplete _ false).2, Option.bind_eq_bind,
      Option.bind_some]
  | broken => simp only [habandon, Option.map_some]

/-! ## Channels -/

/-- Only the drop of a channel lets the sink go. -/
theorem attached_step (hs : e.Sound) (hm : move ≠ .detach) :
    (e.step move).sink.attached = e.sink.attached ∧
      (e.step move).sink.cache.isOpen = e.sink.cache.isOpen := by
  refine (step_induction (I := fun d => d.Sound ∧ d.sink.attached = e.sink.attached ∧
    d.sink.cache.isOpen = e.sink.cache.isOpen) (fun {d f} hc hd => ?_) ⟨hs, rfl, rfl⟩).2
  obtain ⟨hsound, hattached, hopen⟩ := hd
  refine ⟨hsound.change hc, ?_⟩
  rw [← hattached, ← hopen]
  have hsink := hc.sinkChange
  generalize f.sink = s at hsink ⊢
  cases hsink with
  | served _ found serving =>
    exact ⟨serving.attached,
      (hsound.asks (hsound.onGrid _ (mem_of_lookup found)) serving.asks).2.2.1.isOpen⟩
  | completed _ _ _ => exact ⟨rfl, (Cache.sameSetting_complete _ _ _ _).isOpen⟩
  | abandoned _ _ => exact ⟨rfl, (Cache.sameSetting_abandon _ _ _).isOpen⟩
  | same => exact ⟨rfl, rfl⟩
  | invalidated _ => exact ⟨rfl, rfl⟩
  | detached _ isMove => exact absurd isMove hm
  | closed isMove => exact absurd isMove hm

end Engine

end TileCache
