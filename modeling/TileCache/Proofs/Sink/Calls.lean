import TileCache.Proofs.Sink.Carries

/-!
# Where the pixels of a tile come from

A `CompletedCall` of a run is one call of a source that completed: the place of its beginning and
of its end in the run, the job that it was made for, and what it left in the buffer.  Its
generation is that of the image at the moment of its beginning.

`traced_run` is the invariant that links tiles to calls: the buffer of a painted tile is, byte for
byte, what one completed call for the very cell of the tile left, stamped with the generation of
the call.  It holds in every run and for all sources.
-/

set_option autoImplicit false

namespace TileCache.Engine

/-- A call that was made in the run and completed. -/
structure CompletedCall (e : Engine) (moves : List Move) where
  before : List Move
  between : List Move
  after : List Move
  id : Nat
  job : Job
  client : Client
  source : Source
  left : Region
  /-- Computation `id` begins after the moves `before` and ends after `between`. -/
  moves_eq : moves = before ++ .begin id :: (between ++ .finish id source :: after)
  /-- Before, it is queued, -/
  queued : (id, ⟨job, none, client⟩) ∈ (e.run before).computations
  /-- and when it ends, it has begun at the generation of its beginning. -/
  running : (e.run (before ++ .begin id :: between)).computations.lookup id =
    some ⟨job, some (e.run before).sink.generation, client⟩
  completed : source job.region = ⟨left, .completed⟩

variable {e : Engine} {moves : List Move}

namespace CompletedCall

/-- The generation of the image when the call began. -/
def generation (call : CompletedCall e moves) : Nat := (e.run call.before).sink.generation

/-- The same call in a longer run. -/
def extend (call : CompletedCall e moves) (move : Move) : CompletedCall e (moves ++ [move]) :=
  { call with
    after := call.after ++ [move]
    moves_eq := (congrArg (· ++ [move]) call.moves_eq).trans (by simp) }

end CompletedCall

/-- What one knows of computation `n` in a run: if it has begun, it did so at a certain place. -/
def BeganIn (e : Engine) (moves : List Move) (n : Nat) (c : Computation) : Prop :=
  ∀ beganAt, c.beganAt? = some beganAt → ∃ before between,
    moves = before ++ .begin n :: between ∧
      (n, ⟨c.job, none, c.client⟩) ∈ (e.run before).computations ∧
      (e.run before).sink.generation = beganAt

/-- If the tile is painted, its buffer is what a completed call for its cell left. -/
def TracedTo (e : Engine) (moves : List Move) (t : Tile) : Prop :=
  t.state = .painted → ∃ call : CompletedCall e moves, call.job.area = t.area ∧
    t.region? = some { call.left with stamp := some call.generation }

theorem BeganIn.extend {n : Nat} {c : Computation} (h : BeganIn e moves n c) (move : Move) :
    BeganIn e (moves ++ [move]) n c := by
  intro beganAt hb
  obtain ⟨before, between, rfl, hq, hg⟩ := h beganAt hb
  refine ⟨before, between ++ [move], ?_, hq, hg⟩
  rw [List.append_assoc, List.cons_append]

theorem TracedTo.extend {t : Tile} (h : TracedTo e moves t) (move : Move) :
    TracedTo e (moves ++ [move]) t := by
  intro hp
  obtain ⟨call, ha, hr⟩ := h hp
  exact ⟨call.extend move, ha, hr⟩

theorem tracedTo_of_state_ne {t : Tile} (h : t.state ≠ .painted) : TracedTo e moves t :=
  fun hp => absurd hp h

theorem durable_tracedTo (info : ImageInfo) (e : Engine) (moves : List Move) :
    Cache.Durable info (TracedTo e moves) where
  created := by
    intro cell t ht
    obtain ⟨region, -, rfl⟩ := Cache.create_eq_ok ht
    exact tracedTo_of_state_ne (show TileState.blank ≠ .painted by decide)
  used := fun _ h => h
  moved := by
    intro cell t t' _ hm
    rcases Cache.moveTo_cases hm with ⟨-, rfl⟩ | ⟨old, region, -, -, rfl⟩
    · exact tracedTo_of_state_ne (show TileState.blank ≠ .painted by decide)
    · exact tracedTo_of_state_ne (show TileState.blank ≠ .painted by decide)
  emptied := fun _ => tracedTo_of_state_ne (show TileState.computing ≠ .painted by decide)

/-- The end of a call that completed makes it the origin of the tile's pixels. -/
theorem tracedTo_of_finish {n beganAt : Nat} {c : Computation} {source : Source} {t : Tile}
    (hf : (e.run moves).computations.lookup n = some c) (hj : BeganIn e moves n c)
    (hb : c.beganAt? = some beganAt) (ha : t.area = c.job.area) :
    TracedTo e (moves ++ [.finish n source])
      (t.checkin ((source c.job.region).stamped beganAt)
        ((source c.job.region).ending = .completed)) := by
  obtain ⟨before, between, rfl, hq, rfl⟩ := hj beganAt hb
  obtain ⟨job, beganAt?, client⟩ := c
  obtain rfl := hb
  cases hs : source job.region with
  | mk left ending =>
    by_cases hend : ending = .completed
    · subst hend
      intro _
      exact ⟨{
        before, between, after := [], id := n, job, client, source, left
        moves_eq := by rw [List.append_assoc, List.cons_append]
        queued := hq
        running := hf
        completed := hs }, ha.symm, rfl⟩
    · refine tracedTo_of_state_ne ?_
      simp [Tile.checkin, hend]

theorem flow_tracedTo (e : Engine) (moves : List Move) (move : Move) :
    (e.run moves).Flow move (TracedTo e moves) (TracedTo e (moves ++ [move]))
      (BeganIn e moves) (BeganIn e (moves ++ [move])) where
  tiles := fun _ h => h.extend move
  computations := fun _ _ h => h.extend move
  durable := durable_tracedTo _ e _
  handedOut := fun _ _ _ _ _ _ hb => nomatch hb
  begun := by
    intro n c hm hmem _ hq beganAt hb
    obtain rfl := Option.some.inj hb
    refine ⟨moves, [], by rw [hm], ?_, rfl⟩
    obtain ⟨job, beganAt?, client⟩ := c
    obtain rfl := hq
    exact hmem
  returned := by
    intro n beganAt c source t hm hf hj hb ha
    rw [hm]
    exact tracedTo_of_finish hf hj hb ha
  dropped := fun _ _ => tracedTo_of_state_ne (show TileState.blank ≠ .painted by decide)

/-- **The pixels of a painted tile are what one completed call for its cell left.** -/
theorem traced_run {info : ImageInfo} {config : Config} {hasRuntime withMask : Bool} {s : Sink}
    (hs : Sink.create info config hasRuntime withMask = .ok s) (moves : List Move) :
    ((ofSink s hasRuntime).run moves).Carries (TracedTo (ofSink s hasRuntime) moves)
      (BeganIn (ofSink s hasRuntime) moves) := by
  induction moves using List.reverseRecOn with
  | nil => exact carries_ofSink hs
  | append_singleton moves move ih =>
    rw [run_concat]
    exact ih.step (sound_run hs moves).1 (flow_tracedTo _ moves move)

/-! ## Generations -/

/-- The generation never falls. -/
theorem generation_le_step (e : Engine) (move : Move) :
    e.sink.generation ≤ (e.step move).sink.generation :=
  step_induction (I := fun d => e.sink.generation ≤ d.sink.generation)
    (fun hc hd => Nat.le_trans hd hc.sinkChange.generation_le) (Nat.le_refl _)

theorem generation_le_run (e : Engine) (moves : List Move) :
    e.sink.generation ≤ (e.run moves).sink.generation := by
  induction moves generalizing e with
  | nil => exact Nat.le_refl _
  | cons move moves ih => exact Nat.le_trans (generation_le_step e move) (ih (e.step move))

/-- An invalidation raises the generation for good. -/
theorem generation_lt_run {e : Engine} {moves : List Move} (h : Move.invalidate ∈ moves) :
    e.sink.generation < (e.run moves).sink.generation := by
  induction moves generalizing e with
  | nil => cases h
  | cons move moves ih =>
    rcases List.mem_cons.1 h with rfl | hm
    · exact Nat.lt_of_lt_of_le (Nat.lt_succ_self _) (generation_le_run (e.step .invalidate) moves)
    · exact Nat.lt_of_le_of_lt (generation_le_step e move) (ih hm)

/-- The moves of a run since a call of it began. -/
theorem CompletedCall.generation_lt (call : CompletedCall e moves)
    (h : Move.invalidate ∈ call.between ∨ Move.invalidate ∈ call.after) :
    call.generation < (e.run moves).sink.generation := by
  have hm : Move.invalidate ∈
      Move.begin call.id :: (call.between ++ .finish call.id call.source :: call.after) := by
    simpa using h
  have hlt := generation_lt_run (e := e.run call.before) hm
  rw [← run_append, ← call.moves_eq] at hlt
  exact hlt

end TileCache.Engine
