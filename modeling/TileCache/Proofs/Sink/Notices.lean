import TileCache.Proofs.Sink.Slots

/-!
# Who is told what was painted

A sink that computes in the background tells which cells it has painted.  Whether there is something
to tell is decided after the buffer has gone back, by a look at the tile, so it has to be shown that
the tile is then in the state in which this very computation has left it.

* `paintedBy` is the log of the computations that complete while the sink is open.
* `painted_settle`: what the look at the tile says.
* `Numbered`: computations go by numbers that are given once, so that none is in the log twice.
* `notices_run`: the notices are the log, and each of them is true when it is given.
-/

set_option autoImplicit false

namespace TileCache

namespace Cache

/-- The tile of an open cache is painted after a call if that call has painted it. -/
theorem hasPainted_complete {c : Cache} {id : Nat} (ho : c.isOpen = true) {tile : Tile}
    (ht : c.tiles[id]? = some tile) (region : Region) (succeeded : Bool) :
    (c.complete id region succeeded).hasPainted id = succeeded := by
  have hopen : (c.complete id region succeeded).isOpen = true :=
    (sameSetting_complete c id region succeeded).isOpen.trans ho
  rw [hasPainted, hopen, Bool.true_and]
  cases succeeded with
  | true =>
    rw [getElem?_complete_self ho ht]
    rfl
  | false =>
    have hblank : (c.complete id region false).tiles[id]? = some (tile.checkin region false) := by
      rw [complete, ho]
      show (c.noteComputeFailure.checkin id region false).tiles[id]? = _
      rw [checkin, show c.noteComputeFailure.tiles[id]? = some tile from ht]
      exact getElem?_setTile_self (c := c.noteComputeFailure) (lt_size ht) _
    rw [hblank]
    rfl

end Cache

namespace Engine

variable {e d : Engine} {move : Move} {id : Nat} {gone : List Nat}

/-- The computation that a move completes while the sink is open: its number and its area. -/
def paintedBy (e : Engine) : Move → List (Nat × Rect)
  | .finish id source =>
    match e.computations.lookup id with
    | none => []
    | some c =>
      if e.sink.cache.isOpen ∧ c.beganAt?.isSome ∧ (source c.job.region).ending = .completed then
        [(id, c.job.area)]
      else []
  | .openPull _ _ _ | .advance _ _ | .dropPull _ | .begin _ | .drop _ | .invalidate | .detach
  | .shutdown => []

/-- The log of a run. -/
def painted (e : Engine) (moves : List Move) : List (Nat × Rect) := collect paintedBy e moves

theorem paintedBy_of_not_finish (h : ∀ n source, move ≠ .finish n source) :
    e.paintedBy move = [] := by
  cases move with
  | finish n source => exact absurd rfl (h n source)
  | openPull _ _ _ => rfl
  | advance _ _ => rfl
  | dropPull _ => rfl
  | begin _ => rfl
  | drop _ => rfl
  | invalidate => rfl
  | detach => rfl
  | shutdown => rfl

/-- A move completes one computation at most. -/
theorem paintedBy_cases (e : Engine) (move : Move) :
    e.paintedBy move = [] ∨ ∃ n source c beganAt, move = .finish n source ∧
      e.computations.lookup n = some c ∧ c.beganAt? = some beganAt ∧
      e.sink.cache.isOpen = true ∧ (source c.job.region).ending = .completed ∧
      e.paintedBy move = [(n, c.job.area)] := by
  by_cases hm : ∃ n source, move = .finish n source
  · obtain ⟨n, source, rfl⟩ := hm
    rw [paintedBy]
    cases hf : e.computations.lookup n with
    | none => exact .inl rfl
    | some c =>
      dsimp only
      split
      · rename_i hall
        obtain ⟨beganAt, hb⟩ := Option.isSome_iff_exists.1 hall.2.1
        exact .inr ⟨n, source, c, beganAt, rfl, hf, hb, hall.1, hall.2.2, rfl⟩
      · exact .inl rfl
  · exact .inl (paintedBy_of_not_finish fun n source hn => hm ⟨n, source, hn⟩)

/-! ## What the look at the tile says -/

/-- **A computation finds its tile painted if it has completed, and the sink is open.** -/
theorem painted_settle (hs : e.Sound) {c : Computation} (hf : e.computations.lookup id = some c)
    (beganAt : Nat) (answer : Answer) : (e.sink.settle c.job beganAt answer).2 = true ↔
      e.sink.cache.isOpen = true ∧ answer.ending = .completed := by
  have found : ∀ succeeded : Bool,
      (e.sink.cache.complete c.job.tile (answer.stamped beganAt) succeeded).hasPainted c.job.tile =
        true ↔ e.sink.cache.isOpen = true ∧ succeeded = true := by
    intro succeeded
    by_cases ho : e.sink.cache.isOpen = true
    · obtain ⟨t, ht, -⟩ := hs.exists_tile ho hf
      rw [Cache.hasPainted_complete ho ht]
      exact ⟨fun h => ⟨ho, h⟩, fun h => h.2⟩
    · rw [Bool.not_eq_true] at ho
      rw [Cache.complete_of_closed ho, Cache.hasPainted, ho]
      exact ⟨fun h => absurd h Bool.false_ne_true, fun h => absurd h.1 Bool.false_ne_true⟩
  rw [Sink.settle]
  cases answer.ending with
  | completed => exact (found true).trans (and_congr_right fun _ => ⟨fun _ => rfl, fun _ => rfl⟩)
  | failed error =>
    refine (found false).trans (and_congr_right fun _ => ⟨fun h => ?_, fun h => ?_⟩)
    · cases h
    · cases h
  | broken =>
    refine ⟨fun h => ?_, fun h => ?_⟩
    · cases h
    · cases h.2

/-! ## Numbers of computations -/

/-- The computations under way and those that are gone have different numbers, and the next one gets
a number of its own. -/
structure Numbered (e : Engine) (gone : List Nat) : Prop where
  distinct : (gone ++ e.computations.map (·.1)).Nodup
  lt : ∀ n ∈ gone ++ e.computations.map (·.1), n < e.nextId

theorem numbered_ofSink (s : Sink) (hasRuntime : Bool) : (ofSink s hasRuntime).Numbered [] :=
  ⟨List.nodup_nil, fun _ hn => absurd hn List.not_mem_nil⟩

/-- With a job that is handed out goes the next number. -/
theorem numbers_carryOn (e : Engine) (id : Nat) (client : Client)
    (r : Sink × Served × Option Job) :
    let d := (e.carryOn id client r).1
    (d.computations = e.computations ∧ d.nextId = e.nextId) ∨
      ∃ job, d.computations = (e.nextId, ⟨job, none, client⟩) :: e.computations ∧
        d.nextId = e.nextId + 1 := by
  obtain ⟨s, served, job?⟩ := r
  rcases takeJob_eq { e with sink := s } client job? with h | ⟨job, -, h⟩
  · have hboth := And.intro (congrArg Engine.computations h) (congrArg Engine.nextId h)
    cases served <;> exact .inl hboth
  · have hboth := And.intro (congrArg Engine.computations h) (congrArg Engine.nextId h)
    cases served <;> exact .inr ⟨job, hboth⟩

/-- The number of a computation that is forgotten is among those that are gone. -/
theorem Numbered.forget (h : e.Numbered gone) {c : Computation}
    (hf : e.computations.lookup id = some c) (hc : d.computations = (e.forget id).computations)
    (hn : d.nextId = e.nextId) : d.Numbered (gone ++ [id]) := by
  have hperm : (gone ++ e.computations.map (·.1)).Perm
      ((gone ++ [id]) ++ d.computations.map (·.1)) := by
    rw [hc, List.append_assoc]
    exact ((perm_of_lookup hf).map _).append_left gone
  exact ⟨hperm.nodup_iff.1 h.distinct, fun n hm => hn ▸ h.lt n (hperm.mem_iff.2 hm)⟩

theorem Numbered.of_append {n : Nat} (h : e.Numbered (gone ++ [n])) : e.Numbered gone := by
  have hsub : (gone ++ e.computations.map (·.1)).Sublist
      ((gone ++ [n]) ++ e.computations.map (·.1)) :=
    (List.sublist_append_left gone [n]).append_right _
  exact ⟨h.distinct.sublist hsub, fun m hm => h.lt m (hsub.subset hm)⟩

theorem Numbered.change (h : e.Numbered gone) (hc : Change move e d) : d.Numbered gone := by
  cases hc with
  | opened _ _ => exact ⟨h.distinct, fun n hn => Nat.lt_succ_of_lt (h.lt n hn)⟩
  | @served id _ _ r _ _ _ =>
    rcases numbers_carryOn (e.dropPull id) id (e.clientOf id) r with ⟨hl, hn⟩ | ⟨job, hl, hn⟩
    · exact ⟨hl ▸ h.distinct, hl ▸ hn ▸ h.lt⟩
    · have hfresh : e.nextId ∉ gone ++ e.computations.map (·.1) := fun hm =>
        Nat.lt_irrefl _ (h.lt _ hm)
      have hperm : (gone ++ ((e.dropPull id).carryOn id (e.clientOf id) r).1.computations.map
          (·.1)).Perm (e.nextId :: (gone ++ e.computations.map (·.1))) := by
        rw [hl]
        exact List.perm_middle
      refine ⟨hperm.nodup_iff.2 (List.nodup_cons.2 ⟨hfresh, h.distinct⟩), fun n hm => ?_⟩
      rw [hn]
      rcases List.mem_cons.1 (hperm.mem_iff.1 hm) with rfl | hm
      · exact Nat.lt_succ_self _
      · exact Nat.lt_succ_of_lt (h.lt n hm)
  | @began id _ =>
    have hsame : (e.begin id).computations.map (·.1) = e.computations.map (·.1) := by
      rw [begin, List.map_map]
      refine List.map_congr_left fun nc _ => ?_
      dsimp only [Function.comp]
      split <;> rfl
    exact ⟨hsame ▸ h.distinct, hsame ▸ h.lt⟩
  | finished _ found _ =>
    rw [wake_eq]
    exact .of_append (h.forget found rfl rfl)
  | lost found _ =>
    rw [wake_eq]
    exact .of_append (h.forget found rfl rfl)
  | abandoned found _ =>
    rw [wake_eq]
    exact .of_append (h.forget found rfl rfl)
  | left _ => exact ⟨h.distinct, h.lt⟩
  | invalidated _ => exact ⟨h.distinct, h.lt⟩
  | detached _ => exact ⟨h.distinct, h.lt⟩
  | closed => exact ⟨h.distinct, h.lt⟩
  | ended => exact ⟨h.distinct, h.lt⟩

/-- A computation that has begun is forgotten when its call ends. -/
theorem Numbered.finish (h : e.Numbered gone) {c : Computation} {beganAt : Nat}
    (hf : e.computations.lookup id = some c) (hb : c.beganAt? = some beganAt) (answer : Answer) :
    (e.finish id answer).Numbered (gone ++ [id]) := by
  rw [Engine.finish, hf]
  simp only [hb]
  rw [wake_eq]
  split <;> exact h.forget hf rfl rfl

/-- Computations keep their numbers apart. -/
theorem Numbered.step_nil (h : e.Numbered []) (move : Move) : (e.step move).Numbered [] :=
  step_induction (I := fun d => d.Numbered []) (fun hc hd => hd.change hc) h

theorem Numbered.run_nil (h : e.Numbered []) (moves : List Move) : (e.run moves).Numbered [] := by
  induction moves generalizing e with
  | nil => exact h
  | cons move moves ih => exact ih (h.step_nil move)

/-- **No number comes into the log twice.** -/
theorem Numbered.step (h : e.Numbered gone) (move : Move) :
    (e.step move).Numbered (gone ++ (e.paintedBy move).map (·.1)) := by
  have hkeeps : (e.step move).Numbered gone :=
    step_induction (I := fun d => d.Numbered gone) (fun hc hd => hd.change hc) h
  rcases e.paintedBy_cases move with hp | ⟨n, source, c, beganAt, rfl, hf, hb, -, -, hp⟩
  · rw [hp, List.map_nil, List.append_nil]
    exact hkeeps
  · rw [hp, step_finish_of_some source hf]
    exact h.finish hf hb _

/-! ## Notices -/

/-- In the background nobody waits for a computation. -/
def Unattended (e : Engine) : Prop := ∀ nc ∈ e.computations, nc.2.client = .nobody

theorem Unattended.change (h : e.Unattended) (hmode : e.sink.config.mode = .background)
    (hc : Change move e d) : d.Unattended := by
  have hforget : ∀ id, ∀ nc ∈ (e.forget id).computations, nc.2.client = .nobody := fun id nc hnc =>
    h nc (mem_computations_forget hnc)
  cases hc with
  | @served id _ _ r _ _ _ =>
    rcases computations_carryOn (e.dropPull id) id (e.clientOf id) r with hl | ⟨job, -, hl⟩
    · exact fun nc hnc => h nc (hl ▸ hnc)
    · intro nc hnc
      rw [hl] at hnc
      rcases List.mem_cons.1 hnc with rfl | hnc
      · show e.clientOf id = .nobody
        rw [clientOf, hmode]
      · exact h nc hnc
  | began _ =>
    intro nc hnc
    obtain ⟨⟨n, c⟩, hm, rfl⟩ := List.mem_map.1 hnc
    have hclient : c.client = .nobody := h _ hm
    dsimp only
    split <;> exact hclient
  | finished _ _ _ =>
    rw [wake_eq]
    exact hforget _
  | lost _ _ =>
    rw [wake_eq]
    exact hforget _
  | abandoned _ _ =>
    rw [wake_eq]
    exact hforget _
  | opened _ _ => exact h
  | left _ => exact h
  | invalidated _ => exact h
  | detached _ => exact h
  | closed => exact h
  | ended => exact h

theorem Unattended.step (h : e.Unattended) (hs : e.Sound)
    (hmode : e.sink.config.mode = .background) (move : Move) : (e.step move).Unattended :=
  (step_induction (I := fun d => d.Sound ∧ SameBase e d ∧ d.Unattended)
    (fun hc hd => ⟨hd.1.change hc, hd.2.1.trans (SameBase.change hd.1 hc),
      hd.2.2.change (hd.2.1.config ▸ hmode) hc⟩)
    ⟨hs, ⟨rfl, rfl, rfl, rfl⟩, h⟩).2.2

/-- Only the end of a call gives a notice. -/
theorem notified_of_not_finish (h : ∀ n source, move ≠ .finish n source) :
    (e.step move).notified = e.notified := by
  refine step_induction (I := fun d => d.notified = e.notified) (fun {d f} hc hd => ?_) rfl
  rw [← hd]
  cases hc with
  | @served id _ _ r _ _ _ =>
    obtain ⟨computations, nextId, heq, -⟩ := carryOn_eq (d.dropPull id) id (d.clientOf id) r
    rw [heq]
    rfl
  | finished isMove _ _ => exact absurd isMove (h _ _)
  | lost _ _ =>
    rw [wake_eq]
    rfl
  | abandoned _ _ =>
    rw [wake_eq]
    rfl
  | opened _ _ => rfl
  | left _ => rfl
  | began _ => rfl
  | invalidated _ => rfl
  | detached _ => rfl
  | closed => rfl
  | ended => rfl

theorem notified_finish (hs : e.Sound) (hnotify : e.sink.config.notify = true)
    (hu : e.Unattended) (id : Nat) (source : Source) :
    (e.step (.finish id source)).notified =
      (e.paintedBy (.finish id source)).map (·.2) ++ e.notified := by
  rw [paintedBy]
  cases hf : e.computations.lookup id with
  | none =>
    rw [step_finish_of_none source hf]
    rfl
  | some c =>
    cases hb : c.beganAt? with
    | none =>
      rw [step_finish_of_queued source hf hb]
      simp [hb]
    | some beganAt =>
      have hclient : c.client = .nobody := hu _ (mem_of_lookup hf)
      have hpainted := painted_settle hs hf beganAt (source c.job.region)
      have hconfig :
          (e.sink.settle c.job beganAt (source c.job.region)).1.config = e.sink.config := by
        rcases settle_eq e.sink c.job beganAt (source c.job.region) with ⟨_, -, h⟩ | ⟨-, h⟩ <;>
          rw [h]
      rw [step_finish_of_some source hf, Engine.finish, hf]
      simp only [hb]
      rw [wake_eq]
      by_cases hend : e.sink.cache.isOpen = true ∧ (source c.job.region).ending = .completed
      · rw [if_pos ⟨hclient, hpainted.2 hend, hconfig ▸ hnotify⟩,
          if_pos ⟨hend.1, rfl, hend.2⟩]
        rfl
      · rw [if_neg fun h => hend (hpainted.1 h.2.1), if_neg fun h => hend ⟨h.1, h.2.2⟩]
        rfl

theorem notified_step (hs : e.Sound) (hnotify : e.sink.config.notify = true) (hu : e.Unattended)
    (move : Move) :
    (e.step move).notified = (e.paintedBy move).map (·.2) ++ e.notified := by
  by_cases hm : ∃ n source, move = .finish n source
  · obtain ⟨n, source, rfl⟩ := hm
    exact notified_finish hs hnotify hu n source
  · have hm' : ∀ n source, move ≠ .finish n source := fun n source hn => hm ⟨n, source, hn⟩
    rw [notified_of_not_finish hm', paintedBy_of_not_finish hm']
    rfl

/-- When a notice is given the index leads from the cell to a tile that is painted. -/
theorem exists_tile_of_painted (hs : e.Sound) {na : Nat × Rect} (h : na ∈ e.paintedBy move) :
    ∃ (tile : Nat) (t : Tile), (e.step move).sink.cache.index.find? na.2.origin = some tile ∧
      (e.step move).sink.cache.tiles[tile]? = some t ∧ t.area = na.2 ∧ t.state = .painted := by
  rcases e.paintedBy_cases move with hp | ⟨n, source, c, beganAt, rfl, hf, hb, ho, hend, hp⟩
  · rw [hp] at h
    cases h
  rw [hp, List.mem_singleton] at h
  subst h
  obtain ⟨t, ht, -, ha⟩ := hs.exists_tile ho hf
  have hsound := hs.step (.finish n source)
  have hsink : (e.step (.finish n source)).sink =
      (e.sink.settle c.job beganAt (source c.job.region)).1 := by
    rw [step_finish_of_some source hf, Engine.finish, hf]
    simp only [hb]
    rw [wake_eq]
    split <;> rfl
  have htile : (e.step (.finish n source)).sink.cache.tiles[c.job.tile]? =
      some { t.checkin ((source c.job.region).stamped beganAt) true with
        lastUsed := e.sink.cache.clock } := by
    rw [hsink, Sink.settle, hend]
    exact Cache.getElem?_complete_self ho ht _
  have hfind := hsound.cache.find? htile
  change (e.step (.finish n source)).sink.cache.index.find? t.area.origin = _ at hfind
  rw [ha] at hfind
  exact ⟨c.job.tile, _, hfind, htile, ha, rfl⟩

/-! ## Runs -/

section

variable {info : ImageInfo} {config : Config} {hasRuntime withMask : Bool} {s : Sink}

theorem unattended_run (hs : Sink.create info config hasRuntime withMask = .ok s)
    (hmode : config.mode = .background) (moves : List Move) :
    ((ofSink s hasRuntime).run moves).Unattended := by
  induction moves using List.reverseRecOn with
  | nil => exact fun nc hnc => absurd hnc List.not_mem_nil
  | append_singleton moves move ih =>
    obtain ⟨size, budget, -, hconfig, -, -⟩ := create_eq_ok hs
    obtain ⟨hsound, hbase⟩ := sound_run hs moves
    rw [run_concat]
    refine ih.step hsound ?_ move
    rw [hbase.config]
    exact (congrArg Config.mode hconfig).trans hmode

/-- **Notices are exact.**  Take any run of a new sink that computes in the background and notifies.
The areas that were notified are, in this order, those of the computations that completed while the
sink was open, with one notice for each computation; a computation that failed, broke off, was
dropped or lost, or completed after the sink was closed gives none.  And in every state that a run
leads to, if a move gives a notice, then afterwards the index has a painted tile for the area. -/
theorem notices_run (hs : Sink.create info config hasRuntime withMask = .ok s)
    (hmode : config.mode = .background) (hnotify : config.notify = true) (moves : List Move) :
    let e := (ofSink s hasRuntime).run moves
    let log := (ofSink s hasRuntime).painted moves
    e.notified.reverse = log.map (·.2) ∧ (log.map (·.1)).Nodup ∧
      ∀ move : Move, (e.step move).notified = (e.paintedBy move).map (·.2) ++ e.notified ∧
        ∀ na ∈ e.paintedBy move, ∃ (tile : Nat) (t : Tile),
          (e.step move).sink.cache.index.find? na.2.origin = some tile ∧
          (e.step move).sink.cache.tiles[tile]? = some t ∧ t.area = na.2 ∧
          t.state = .painted := by
  intro e log
  obtain ⟨size, budget, -, hconfig, -, -⟩ := create_eq_ok hs
  have notifies : ∀ moves : List Move,
      ((ofSink s hasRuntime).run moves).sink.config.notify = true := fun moves => by
    rw [(sound_run hs moves).2.config]
    exact (congrArg Config.notify hconfig).trans hnotify
  have told : ∀ moves move, (((ofSink s hasRuntime).run moves).step move).notified = _ :=
    fun moves move => notified_step (sound_run hs moves).1 (notifies moves)
      (unattended_run hs hmode moves) move
  have hall : ∀ moves : List Move,
      ((ofSink s hasRuntime).run moves).notified.reverse =
          ((ofSink s hasRuntime).painted moves).map (·.2) ∧
        ((ofSink s hasRuntime).run moves).Numbered
          (((ofSink s hasRuntime).painted moves).map (·.1)) := by
    intro moves
    induction moves using List.reverseRecOn with
    | nil => exact ⟨rfl, numbered_ofSink s hasRuntime⟩
    | append_singleton moves move ih =>
      have hsplit : (ofSink s hasRuntime).painted (moves ++ [move]) =
          (ofSink s hasRuntime).painted moves ++
            ((ofSink s hasRuntime).run moves).paintedBy move := collect_concat _ _ _ _
      have hshort : (((ofSink s hasRuntime).run moves).paintedBy move).reverse =
          ((ofSink s hasRuntime).run moves).paintedBy move := by
        rcases ((ofSink s hasRuntime).run moves).paintedBy_cases move with
          hp | ⟨_, _, _, _, -, -, -, -, -, hp⟩ <;> rw [hp] <;> rfl
      rw [run_concat, hsplit, List.map_append, List.map_append]
      refine ⟨?_, ih.2.step move⟩
      rw [told, List.reverse_append, ih.1, ← List.map_reverse, hshort]
  refine ⟨(hall moves).1, ?_, fun move => ⟨told moves move, fun na hna =>
    exists_tile_of_painted (sound_run hs moves).1 hna⟩⟩
  exact (List.nodup_append.1 (hall moves).2.distinct).1

/-- Three cells.  The second is painted first, the call for the first one fails, and the third is
painted only after the sink was closed. -/
theorem notices_run_narrow :
    ∃ s, Sink.create ⟨3, 1, 1, .uchar⟩
        { Config.ofTileSize 1 1 with mode := .background, notify := true } true false = .ok s ∧
      let e := (ofSink s true).run
        [.openPull ⟨0, 0, 3, 1⟩ (.empty ⟨3, 1, 1, .uchar⟩) ⟨_, rfl, rfl⟩, .advance 0 0,
          .advance 0 0, .advance 0 0, .begin 1, .begin 2, .finish 2 .pattern,
          .finish 1 fun r => ⟨r, .broken⟩, .begin 3, .detach, .finish 3 .pattern]
      e.notified = [⟨1, 0, 1, 1⟩] := by
  refine ⟨_, rfl, ?_⟩
  have h := (@notices_run ⟨3, 1, 1, .uchar⟩
    { Config.ofTileSize 1 1 with mode := .background, notify := true } true false _ rfl rfl rfl
    [.openPull ⟨0, 0, 3, 1⟩ (.empty ⟨3, 1, 1, .uchar⟩) ⟨_, rfl, rfl⟩, .advance 0 0,
      .advance 0 0, .advance 0 0, .begin 1, .begin 2, .finish 2 .pattern,
      .finish 1 fun r => ⟨r, .broken⟩, .begin 3, .detach, .finish 3 .pattern]).1
  exact List.reverse_eq_iff.1 (h.trans rfl)

end

end Engine

end TileCache
