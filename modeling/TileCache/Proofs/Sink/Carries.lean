import TileCache.Proofs.Sink.Sound
import Mathlib.Data.List.Induction

/-!
# Properties of buffers throughout a run

A buffer goes from a tile to a computation and back again.  To show that all buffers have some
property throughout a run one states it twice, as `P` for tiles and as `J` for computations, and
shows that it goes along with the buffer: `Flow` lists what is to be shown for one move.  Both may
speak of the run so far, and so may become weaker with the move.  `Carries.step` then takes care of
the rest, that is of all the ways in which a move can change tiles and computations, and
`carries_run` of all moves of a run.

Often it is a property of the buffer and its cell alone.  Then it is enough that buffers have it
from the beginning (`Inborn`) and that the sources leave it (`buffered_run`).  The first of this
kind is that a buffer fits its tile (`Framed`): it holds the part of the tile's cell that lies in
the image.  This hangs on the sources, which have to leave the frame of a buffer alone.
-/

set_option autoImplicit false

namespace TileCache.Engine

variable {e : Engine} {move : Move} {P P' : Tile → Prop} {J J' : Nat → Computation → Prop}

/-- All tiles satisfy `P` and all computations `J`. -/
structure Carries (e : Engine) (P : Tile → Prop) (J : Nat → Computation → Prop) : Prop where
  tiles : e.sink.cache.All P
  computations : ∀ nc ∈ e.computations, J nc.1 nc.2

/-- The property, which is `P` and `J` before the given move and `P'` and `J'` after it, goes along
with a buffer in that move. -/
structure Flow (e : Engine) (move : Move) (P P' : Tile → Prop) (J J' : Nat → Computation → Prop) :
    Prop where
  tiles : ∀ t, P t → P' t
  computations : ∀ n c, J n c → J' n c
  durable : Cache.Durable e.sink.cache.info P'
  /-- from a tile to a queued computation, -/
  handedOut : ∀ {t : Tile} {region : Region} (n id : Nat) (client : Client), P' t →
    t.region? = some region → J' n ⟨⟨id, t.area, region⟩, none, client⟩
  /-- to one that has begun, -/
  begun : ∀ {n : Nat} {c : Computation}, move = .begin n → (n, c) ∈ e.computations → J n c →
    c.beganAt? = none → J' n { c with beganAt? := some e.sink.generation }
  /-- and back to the tile at the end of the call, -/
  returned : ∀ {n beganAt : Nat} {c : Computation} {source : Source} {t : Tile},
    move = .finish n source → e.computations.lookup n = some c → J n c →
    c.beganAt? = some beganAt → t.area = c.job.area →
    P' (t.checkin ((source c.job.region).stamped beganAt)
      ((source c.job.region).ending = .completed))
  /-- or without that. -/
  dropped : ∀ {n : Nat} {c : Computation} {t : Tile}, J' n c → t.area = c.job.area →
    P' (t.checkin c.job.region false)

theorem Carries.imp (h : e.Carries P J)
    (hP : ∀ t, P t → P' t) (hJ : ∀ n c, J n c → J' n c) : e.Carries P' J' :=
  ⟨fun id t ht => hP t (h.tiles id t ht), fun nc hnc => hJ _ _ (h.computations nc hnc)⟩

/-- In an open cache a computation has its tile. -/
theorem Sound.exists_tile (hs : e.Sound) (ho : e.sink.cache.isOpen = true) {n : Nat}
    {c : Computation} (hf : e.computations.lookup n = some c) :
    ∃ t, e.sink.cache.tiles[c.job.tile]? = some t ∧ t.state = .computing ∧ t.area = c.job.area :=
  (hs.lends ho).isOut c.job (List.mem_map.2 ⟨(n, c), mem_of_lookup hf, rfl⟩)

/-- The tile stands on the cell of the job. -/
theorem Sound.area_eq (hs : e.Sound) (ho : e.sink.cache.isOpen = true) {n : Nat} {c : Computation}
    (hf : e.computations.lookup n = some c) {t : Tile}
    (ht : e.sink.cache.tiles[c.job.tile]? = some t) : t.area = c.job.area := by
  obtain ⟨t', ht', -, ha⟩ := hs.exists_tile ho hf
  rw [ht] at ht'
  exact Option.some.inj ht' ▸ ha

/-- What a step of a pull leaves in the cache, and what it hands out, has the property that all
tiles had. -/
theorem Sound.all_of_asks (hs : e.Sound) (hd : Cache.Durable e.sink.cache.info P)
    (h : e.sink.cache.All P) {pull : Pull} {d : Cache} {job? : Option Job}
    (ha : e.sink.Asks pull d job?) :
    d.All P ∧ ∀ job, job? = some job →
      ∃ t, P t ∧ t.region? = some job.region ∧ t.area = job.area := by
  rcases ha with ⟨-, rfl, rfl⟩ | ⟨cell, acquired, -, hacq, rfl⟩
  · refine ⟨h, fun job hj => ?_⟩
    cases hj
  · have hfst : d = (e.sink.cache.acquire e.sink.generation cell).1 := by rw [hacq]
    refine ⟨hfst ▸ h.acquire hd hs.cache _ _, fun job hj => ?_⟩
    cases acquired with
    | ready _ => cases hj
    | unavailable => cases hj
    | broke _ => cases hj
    | compute job' =>
      obtain rfl : job' = job := Option.some.inj hj
      obtain ⟨d₀, tile, hp, -, hreg, harea⟩ := Cache.prepared_of_compute hs.cache hacq
      exact ⟨tile, hp.durable hd h, hreg, harea⟩

theorem Carries.served (hs : e.Sound) (hflow : e.Flow move P P' J J') (h : e.Carries P J)
    {amid : Nat} {pull : Pull} {r : Sink × Served × Option Job}
    (serving : e.sink.Serving amid pull r) (id : Nat) (client : Client) :
    ((e.dropPull id).carryOn id client r).1.Carries P' J' := by
  have h' : e.Carries P' J' := h.imp hflow.tiles hflow.computations
  obtain ⟨htiles, hjob⟩ := hs.all_of_asks hflow.durable h'.tiles serving.asks
  refine ⟨?_, ?_⟩
  · rw [sink_carryOn]
    exact htiles
  · rcases computations_carryOn (e.dropPull id) id client r with hc | ⟨job, hj, hc⟩
    · rw [hc]
      exact h'.computations
    · obtain ⟨t, hP, hreg, harea⟩ := hjob job hj
      have hJ := hflow.handedOut e.nextId job.tile client hP hreg
      rw [harea] at hJ
      rw [hc]
      exact List.forall_mem_cons.2 ⟨hJ, h'.computations⟩

theorem Carries.began (hflow : e.Flow move P P' J J') (h : e.Carries P J) {id : Nat}
    (hm : move = .begin id) : (e.begin id).Carries P' J' := by
  have h' : e.Carries P' J' := h.imp hflow.tiles hflow.computations
  refine ⟨h'.tiles, fun nc hnc => ?_⟩
  obtain ⟨⟨n, c⟩, hmem, rfl⟩ := List.mem_map.1 hnc
  dsimp only
  split
  · rename_i hn
    obtain ⟨rfl, hq⟩ := hn
    exact hflow.begun hm hmem (h.computations _ hmem) hq
  · exact h'.computations _ hmem

theorem Carries.finished (hs : e.Sound) (hflow : e.Flow move P P' J J') (h : e.Carries P J)
    {id beganAt : Nat} {c : Computation} {source : Source} (hm : move = .finish id source)
    (hf : e.computations.lookup id = some c) (hb : c.beganAt? = some beganAt) :
    (e.sink.settle c.job beganAt (source c.job.region)).1.cache.All P' := by
  have htiles : e.sink.cache.All P' := (h.imp hflow.tiles hflow.computations).tiles
  have back : e.sink.cache.isOpen = true → ∀ t, e.sink.cache.tiles[c.job.tile]? = some t →
      P' (t.checkin ((source c.job.region).stamped beganAt)
        ((source c.job.region).ending = .completed)) := fun ho t ht =>
    hflow.returned hm hf (h.computations _ (mem_of_lookup hf)) hb (hs.area_eq ho hf ht)
  rcases settle_eq e.sink c.job beganAt (source c.job.region) with
    ⟨succeeded, hend, hset⟩ | ⟨hend, hset⟩
  · rw [hset]
    have hdec : decide ((source c.job.region).ending = .completed) = succeeded := by
      cases succeeded <;> simpa using hend
    rw [hdec] at back
    exact htiles.complete hflow.durable.used back
  · rw [hset]
    have hdec : decide ((source c.job.region).ending = .completed) = false := by simp [hend]
    rw [hdec] at back
    exact htiles.abandon back

/-- **A property that goes along with buffers is kept by every change.** -/
theorem Carries.change {d : Engine} (hs : e.Sound) (hflow : e.Flow move P P' J J')
    (h : e.Carries P J) (hc : Change move e d) : d.Carries P' J' := by
  have h' : e.Carries P' J' := h.imp hflow.tiles hflow.computations
  have hforget : ∀ id, ∀ nc ∈ (e.forget id).computations, J' nc.1 nc.2 := fun id nc hnc =>
    h'.computations nc (mem_computations_forget hnc)
  cases hc with
  | opened _ _ => exact ⟨h'.tiles, h'.computations⟩
  | left _ => exact ⟨h'.tiles, h'.computations⟩
  | served _ _ serving => exact h.served hs hflow serving _ _
  | began isMove => exact h.began hflow isMove
  | finished isMove found begun =>
    rw [wake_eq]
    exact ⟨h.finished hs hflow isMove found begun, hforget _⟩
  | lost _ _ =>
    rw [wake_eq]
    exact ⟨h'.tiles, hforget _⟩
  | abandoned found _ =>
    rw [wake_eq]
    refine ⟨?_, hforget _⟩
    exact h'.tiles.abandon fun ho t ht =>
      hflow.dropped (h'.computations _ (mem_of_lookup found)) (hs.area_eq ho found ht)
  | invalidated _ => exact ⟨h'.tiles, h'.computations⟩
  | detached _ => exact ⟨h'.tiles, h'.computations⟩
  | closed =>
    refine ⟨fun id t ht => ?_, h'.computations⟩
    cases ht
  | ended => exact ⟨h'.tiles, h'.computations⟩

/-- After a move in which no computation begins or ends there can be another change of the kind. -/
theorem Flow.again {d : Engine} (hflow : e.Flow move P P' J J') (hbase : SameBase e d)
    (hb : ∀ n, move ≠ .begin n) (hf : ∀ n source, move ≠ .finish n source) :
    d.Flow move P' P' J' J' where
  tiles := fun _ h => h
  computations := fun _ _ h => h
  durable := by
    rw [hbase.info]
    exact hflow.durable
  handedOut := hflow.handedOut
  begun := fun hm => absurd hm (hb _)
  returned := fun hm => absurd hm (hf _ _)
  dropped := hflow.dropped

/-- **A property that goes along with buffers is kept by every move.** -/
theorem Carries.step (hs : e.Sound) (hflow : e.Flow move P P' J J') (h : e.Carries P J) :
    (e.step move).Carries P' J' := by
  have h' : e.Carries P' J' := h.imp hflow.tiles hflow.computations
  by_cases hb : ∃ n, move = .begin n
  · obtain ⟨n, rfl⟩ := hb
    exact h.began hflow rfl
  by_cases hf : ∃ n source, move = .finish n source
  · obtain ⟨n, source, rfl⟩ := hf
    cases hl : e.computations.lookup n with
    | none => rwa [step_finish_of_none source hl]
    | some c =>
      rw [step_finish_of_some source hl]
      rcases finish_change hl source with hsame | hc
      · rwa [hsame]
      · exact h.change hs hflow hc
  · have hb' : ∀ n, move ≠ .begin n := fun n hn => hb ⟨n, hn⟩
    have hf' : ∀ n source, move ≠ .finish n source := fun n source hn => hf ⟨n, source, hn⟩
    refine (step_induction (I := fun d => d.Sound ∧ SameBase e d ∧ d.Carries P' J')
      (fun hc hd => ?_) ⟨hs, ⟨rfl, rfl, rfl, rfl⟩, h'⟩).2.2
    obtain ⟨hsound, hbase, hcarries⟩ := hd
    exact ⟨hsound.change hc, hbase.trans (SameBase.change hsound hc),
      hcarries.change hsound (hflow.again hbase hb' hf') hc⟩

theorem carries_ofSink {info : ImageInfo} {config : Config} {hasRuntime withMask : Bool}
    {s : Sink} (hs : Sink.create info config hasRuntime withMask = .ok s) :
    (ofSink s hasRuntime).Carries P J := by
  obtain ⟨size, budget, -, -, -, hc⟩ := create_eq_ok hs
  refine ⟨fun id t ht => ?_, fun nc hnc => absurd hnc List.not_mem_nil⟩
  change s.cache.tiles[id]? = some t at ht
  rw [hc] at ht
  cases ht

/-- **A property that goes along with buffers in all moves of a run holds throughout the run.** -/
theorem carries_run {info : ImageInfo} {config : Config} {hasRuntime withMask : Bool} {s : Sink}
    (hs : Sink.create info config hasRuntime withMask = .ok s) {moves : List Move}
    (hflow : ∀ e : Engine, e.sink.cache.info = info → ∀ move ∈ moves, e.Flow move P P J J) :
    ((ofSink s hasRuntime).run moves).Carries P J := by
  induction moves using List.reverseRecOn with
  | nil => exact carries_ofSink hs
  | append_singleton moves move ih =>
    have hlast := hflow _ (info_run hs moves) move (List.mem_append_right _ List.mem_cons_self)
    rw [run_concat]
    exact (ih fun e he other hm => hflow e he other (List.mem_append_left _ hm)).step
      (sound_run hs moves).1 hlast

/-! ## What is known of a buffer and its cell -/

/-- `B cell r` holds of every buffer that a cell gets, be it a new one or that of another cell. -/
structure Inborn (info : ImageInfo) (B : Rect → Region → Prop) : Prop where
  created : ∀ {cell : Rect} {r : Region}, (Region.empty info).buffer cell = .ok r → B cell r
  moved : ∀ {cell cell' : Rect} {r r' : Region}, B cell r → r.buffer cell' = .ok r' → B cell' r'

/-- The buffer of the tile, if it has one, satisfies `B`. -/
def Buffered (B : Rect → Region → Prop) (t : Tile) : Prop :=
  ∀ r, t.region? = some r → B t.area r

/-- What a call of the source leaves still satisfies `B`. -/
def Leaves (source : Source) (B : Rect → Region → Prop) : Prop :=
  ∀ (cell : Rect) (r : Region) (beganAt : Nat), B cell r → B cell ((source r).stamped beganAt)

section

variable {info : ImageInfo} {B : Rect → Region → Prop}

theorem durable_buffered (hB : Inborn info B) : Cache.Durable info (Buffered B) where
  created := by
    intro cell t ht r hr
    obtain ⟨region, hb, rfl⟩ := Cache.create_eq_ok ht
    obtain rfl := Option.some.inj hr
    exact hB.created hb
  used := fun _ h => h
  moved := by
    intro cell t t' h hm r hr
    rcases Cache.moveTo_cases hm with ⟨-, rfl⟩ | ⟨old, region, ho, hb, rfl⟩
    · cases hr
    · obtain rfl := Option.some.inj hr
      exact hB.moved (h old ho) hb
  emptied := by
    intro t h r hr
    cases hr

/-- A property of a buffer and its cell goes along with the buffer. -/
theorem flow_buffered (hB : Inborn e.sink.cache.info B)
    (hk : ∀ n source, move = .finish n source → Leaves source B) :
    e.Flow move (Buffered B) (Buffered B) (fun _ c => B c.job.area c.job.region)
      (fun _ c => B c.job.area c.job.region) where
  tiles := fun _ h => h
  computations := fun _ _ h => h
  durable := durable_buffered hB
  handedOut := fun _ _ _ h hr => h _ hr
  begun := fun _ _ hj _ => hj
  returned := by
    intro n beganAt c source t hm _ hj _ ha r hr
    obtain rfl := Option.some.inj hr
    show B t.area _
    rw [ha]
    exact hk n source hm _ _ beganAt hj
  dropped := by
    intro n c t hj ha r hr
    obtain rfl := Option.some.inj hr
    show B t.area _
    rw [ha]
    exact hj

/-- **What is inborn in buffers, and left alone by all sources, is true of all buffers in every
run.** -/
theorem buffered_run {config : Config} {hasRuntime withMask : Bool} {s : Sink}
    (hs : Sink.create info config hasRuntime withMask = .ok s) (hB : Inborn info B)
    {moves : List Move} (hk : ∀ n source, Move.finish n source ∈ moves → Leaves source B) :
    ((ofSink s hasRuntime).run moves).Carries (Buffered B)
      (fun _ c => B c.job.area c.job.region) :=
  carries_run hs fun _ he _ hm => flow_buffered (he ▸ hB) fun n source hfinish =>
    hk n source (hfinish ▸ hm)

end

/-! ## Buffers fit their tiles -/

/-- The region is one for the image, and holds the part of the cell that lies in the image, which
is not empty. -/
structure Frames (info : ImageInfo) (cell : Rect) (r : Region) : Prop where
  isFor : r.IsFor info
  valid : r.valid = cell.intersect info.bounds
  nonempty : r.valid.isEmpty = false

/-- The buffer of the tile, if it has one, fits the tile. -/
def Framed (info : ImageInfo) (t : Tile) : Prop :=
  ∀ r, t.region? = some r → Frames info t.area r

theorem frames_of_buffer {info : ImageInfo} {cell : Rect} {r r' : Region} (h : r.IsFor info)
    (hb : r.buffer cell = .ok r') : Frames info cell r' := by
  obtain ⟨hne, -, rfl⟩ := Region.buffer_eq_ok_iff.1 hb
  exact ⟨⟨h.1, h.2⟩, congrArg cell.intersect h.1, hne⟩

theorem Frames.congr {info : ImageInfo} {cell : Rect} {r r' : Region} (h : Frames info cell r)
    (hb : r'.bounds = r.bounds) (hp : r'.pixelSize = r.pixelSize) (hv : r'.valid = r.valid) :
    Frames info cell r' :=
  ⟨⟨hb.trans h.isFor.1, hp.trans h.isFor.2⟩, hv.trans h.valid, by rw [hv]; exact h.nonempty⟩

theorem inborn_frames (info : ImageInfo) : Inborn info (Frames info) :=
  ⟨fun hb => frames_of_buffer ⟨rfl, rfl⟩ hb, fun h hb => frames_of_buffer h.isFor hb⟩

theorem durable_framed (info : ImageInfo) : Cache.Durable info (Framed info) :=
  durable_buffered (inborn_frames info)

theorem frames_stamped {info : ImageInfo} {cell : Rect} {r : Region} (h : Frames info cell r)
    {source : Source} (hk : source.KeepsFrame) (beganAt : Nat) :
    Frames info cell ((source r).stamped beganAt) := by
  obtain ⟨hb, hp, hv⟩ := hk r
  have hs : Frames info cell (source r).region := h.congr hb hp hv
  rw [Answer.stamped]
  split
  · exact ⟨hs.isFor, hs.valid, hs.nonempty⟩
  · exact hs

/-- Do all sources that the moves make calls of leave frames alone? -/
def KeepFrames (moves : List Move) : Prop :=
  ∀ n source, Move.finish n source ∈ moves → Source.KeepsFrame source

theorem KeepFrames.of_append {before after : List Move} (h : KeepFrames (before ++ after)) :
    KeepFrames before :=
  fun n source hm => h n source (List.mem_append_left _ hm)

/-- The test pattern only writes into the buffer that it is given. -/
theorem keepsFrame_pattern : Source.pattern.KeepsFrame := by
  intro r
  rw [Source.pattern, Pattern.paint]
  split
  · exact ⟨rfl, rfl, rfl⟩
  · split <;> exact ⟨rfl, rfl, rfl⟩

/-- **In every run in which the sources leave frames alone, all buffers fit.** -/
theorem framed_run {info : ImageInfo} {config : Config} {hasRuntime withMask : Bool} {s : Sink}
    (hs : Sink.create info config hasRuntime withMask = .ok s) {moves : List Move}
    (hk : KeepFrames moves) :
    ((ofSink s hasRuntime).run moves).Carries (Framed info)
      (fun _ c => Frames info c.job.area c.job.region) :=
  buffered_run hs (inborn_frames info) fun n source hm _ _ beganAt h =>
    frames_stamped h (hk n source hm) beganAt

end TileCache.Engine
