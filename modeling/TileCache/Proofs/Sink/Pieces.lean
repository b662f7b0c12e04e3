import TileCache.Proofs.Pixels.Blocks
import TileCache.Proofs.Sink.Calls

/-!
# What a pull delivers

A pull writes its region cell by cell.  `Piece` says what the part of a region in one cell may be
at the end: zero throughout, or the pixels that one completed call for that very cell left.

The invariant of a pull under way is that each cell is still due or has become such a piece
(`Pieced`).  Three things keep it.  A step writes within the cell that is due only.  The tile that
it copies from has the pixels of one completed call (`TracedTo`).  And the buffer of that tile holds
all of the cell that lies in the image (`Framed`), so that nothing of the cell is left out.
-/

set_option autoImplicit false

namespace TileCache.Engine

/-- The part of `out` in `cell` is zero throughout, or is what one completed call of the run left
that was made for the cell. -/
inductive Piece (e : Engine) (moves : List Move) (info : ImageInfo) (out : Region) (cell : Rect) :
    Prop
  | zero (pixels : ∀ x y, cell.contains x y = true → out.valid.contains x y = true →
      out.pixel x y = .ok (Bytes.replicate out.pixelSize 0))
  | computed (call : CompletedCall e moves) (area : call.job.area = cell)
      (held : call.left.valid = cell.intersect info.bounds)
      (pixels : ∀ x y, cell.contains x y = true → out.valid.contains x y = true →
        ∃ bytes, out.pixel x y = .ok bytes ∧ call.left.pixel x y = .ok bytes)

/-- What is known of a pull into a region for the image: it holds nothing from outside the image,
and each cell of the grid is either due or done. -/
structure Pieced (e : Engine) (moves : List Move) (info : ImageInfo) (size : TileSize) (p : Pull) :
    Prop where
  inside : ∀ x y, p.out.valid.contains x y = true → info.bounds.contains x y = true
  dueOrDone : ∀ cell, size.IsCell cell → Sink.IsDue p cell ∨ Piece e moves info p.out cell

variable {e : Engine} {moves : List Move} {info : ImageInfo} {size : TileSize}

theorem Piece.extend {out : Region} {cell : Rect} (h : Piece e moves info out cell)
    (move : Move) : Piece e (moves ++ [move]) info out cell := by
  cases h with
  | zero pixels => exact .zero pixels
  | computed call area held pixels => exact .computed (call.extend move) area held pixels

theorem Pieced.extend {p : Pull} (h : Pieced e moves info size p) (move : Move) :
    Pieced e (moves ++ [move]) info size p :=
  ⟨h.inside, fun cell hcell => (h.dueOrDone cell hcell).imp_right fun hp => hp.extend move⟩

/-- A piece stays what it is when something else is written. -/
theorem Piece.congr {out next : Region} {cell : Rect} (h : Piece e moves info out cell)
    (hnext : next = { out with bytes := next.bytes })
    (hsame : ∀ x y, cell.contains x y = true → out.valid.contains x y = true →
      next.pixel x y = out.pixel x y) : Piece e moves info next cell := by
  have hv : next.valid = out.valid := by rw [hnext]
  have hp : next.pixelSize = out.pixelSize := by rw [hnext]
  cases h with
  | zero pixels =>
    refine .zero fun x y hxy hin => ?_
    rw [hv] at hin
    rw [hsame x y hxy hin, hp]
    exact pixels x y hxy hin
  | computed call area held pixels =>
    refine .computed call area held fun x y hxy hin => ?_
    rw [hv] at hin
    rw [hsame x y hxy hin]
    exact pixels x y hxy hin

/-! ## Beginning -/

/-- At its beginning a pull has all cells before it that touch its region. -/
theorem pieced_of_buffer {rect : Rect} {out out' : Region} (hr : ∃ info, out.IsFor info)
    (hb : out.buffer rect = .ok out') (hout : out'.IsFor info) :
    Pieced e moves info size ⟨out', out'.valid.cells size, .nothing⟩ := by
  refine ⟨fun x y hxy => ?_, fun cell hcell => ?_⟩
  · have hv : out'.valid = rect.intersect out'.bounds := by
      obtain ⟨-, -, rfl⟩ := Region.buffer_eq_ok_iff.1 hb
      rfl
    have hxy' : out'.valid.contains x y = true := hxy
    rw [hv, hout.1, Rect.contains_intersect, Bool.and_eq_true] at hxy'
    exact hxy'.2
  · by_cases hmem : cell ∈ out'.valid.cells size
    · exact .inl (Sink.isDue_of_nothing.2 hmem)
    · refine .inr (.zero fun x y hxy hin => absurd ?_ hmem)
      obtain ⟨hl, ht⟩ := rounds_of_buffer hr hb size
      rw [hcell.eq_cellAt hxy]
      exact Rect.cellAt_mem_cells hl ht hin

/-! ## Steps -/

/-- The invariant after a cell was written, which is now a piece. -/
theorem Pieced.write {s s' : Sink} {amid : Nat} {p : Pull} {tile? : Option Tile} {cell : Rect}
    {cells : List Rect} {job? : Option Job} {out : Region} (h : Pieced e moves info size p)
    (hg : ∀ c, Sink.IsDue p c → size.IsCell c)
    (due : Sink.Due s amid p s' tile? cell cells job?)
    (hout : out = { p.out with bytes := out.bytes })
    (hsame : ∀ x y, cell.contains x y = false → p.out.valid.contains x y = true →
      out.pixel x y = p.out.pixel x y)
    (hpiece : Piece e moves info out cell) : Pieced e moves info size ⟨out, cells, .nothing⟩ := by
  have hcell : size.IsCell cell := hg cell (due.isDue_iff.2 (.inl rfl))
  have hv : out.valid = p.out.valid := by rw [hout]
  refine ⟨fun x y hxy => h.inside x y (hv ▸ hxy), fun other hother => ?_⟩
  by_cases he : other = cell
  · exact .inr (he ▸ hpiece)
  · rcases h.dueOrDone other hother with hdue | hdone
    · exact .inl (Sink.isDue_of_nothing.2 ((due.isDue_iff.1 hdue).resolve_left he))
    · refine .inr (hdone.congr hout fun x y hxy hin => hsame x y ?_ hin)
      -- a point lies in one cell only
      exact Bool.eq_false_iff.2 fun hc => he (hother.eq_of_contains hcell hxy hc)

theorem Pieced.zeroed {s s' : Sink} {amid : Nat} {p : Pull} {tile? : Option Tile} {cell : Rect}
    {cells : List Rect} {job? : Option Job} {out : Region} (h : Pieced e moves info size p)
    (hg : ∀ c, Sink.IsDue p c → size.IsCell c)
    (due : Sink.Due s amid p s' tile? cell cells job?) (ha : ∀ t, tile? = some t → t.area = cell)
    (painted : p.out.paint (Sink.blankArea tile? cell p.out) 0 = .ok out) :
    Pieced e moves info size ⟨out, cells, .nothing⟩ := by
  have hout := Region.eq_of_paint painted
  refine h.write hg due hout (fun x y hxy hin => ?_) (.zero fun x y hxy hin => ?_)
  · rw [Region.pixel_paint painted hin, Sink.contains_blankArea ha hin, hxy]
    exact if_neg Bool.false_ne_true
  · have hin' : p.out.valid.contains x y = true := by rwa [hout] at hin
    rw [Region.pixel_paint painted hin', Sink.contains_blankArea ha hin', if_pos hxy, hout]

theorem Pieced.copied {s s' : Sink} {amid : Nat} {p : Pull} {t : Tile} {region : Region}
    {cell : Rect} {cells : List Rect} {job? : Option Job} {out : Region}
    (h : Pieced e moves info size p) (hg : ∀ c, Sink.IsDue p c → size.IsCell c)
    (due : Sink.Due s amid p s' (some t) cell cells job?) (ha : t.area = cell)
    (hr : t.region? = some region) (hp : t.state = .painted) (htraced : TracedTo e moves t)
    (hframed : Framed info t)
    (copy : p.out.copyFrom region (t.area.intersect p.out.valid) = .ok out) :
    Pieced e moves info size ⟨out, cells, .nothing⟩ := by
  subst ha
  have hout := Region.eq_of_copyFrom copy
  have hvalid := (hframed region hr).valid
  have harea : ∀ {x y : Coord}, p.out.valid.contains x y = true →
      (t.area.intersect p.out.valid).contains x y = t.area.contains x y := by
    intro x y hin
    rw [Rect.contains_intersect, hin, Bool.and_true]
  refine h.write hg due hout (fun x y hxy hin => ?_) ?_
  · rw [Region.pixel_copyFrom copy hin, harea hin, hxy]
    exact if_neg fun hn => Bool.false_ne_true hn.1
  · obtain ⟨call, hcall, hleft⟩ := htraced hp
    obtain rfl := Option.some.inj (hr.symm.trans hleft)
    refine .computed call hcall hvalid fun x y hxy hin => ?_
    have hin' : p.out.valid.contains x y = true := by rwa [hout] at hin
    -- the buffer of the tile has all of the cell that lies in the image
    have hsource : ({ call.left with stamp := some call.generation } : Region).valid.contains x y
        = true := by
      rw [hvalid, Rect.contains_intersect, hxy, h.inside x y hin']
      rfl
    obtain ⟨bytes, hbytes⟩ :=
      Region.exists_pixel_of_copyFrom copy hin' ((harea hin').trans hxy) hsource
    refine ⟨bytes, ?_, hbytes⟩
    rw [Region.pixel_copyFrom copy hin', if_pos ⟨(harea hin').trans hxy, hsource⟩, hbytes]

/-- **A step of a pull writes one cell at most, and makes a piece of it.** -/
theorem Pieced.serving {f : Engine} (hs : f.Sound)
    (htraced : f.sink.cache.All (TracedTo e moves))
    (hframed : f.sink.cache.All (Framed f.sink.cache.info)) {amid : Nat} {p next : Pull}
    {s' : Sink} {job? : Option Job} (hg : ∀ c, Sink.IsDue p c → f.sink.cache.size.IsCell c)
    (serving : f.sink.Serving amid p (s', .went next, job?))
    (h : Pieced e moves f.sink.cache.info f.sink.cache.size p) :
    Pieced e moves f.sink.cache.info f.sink.cache.size next := by
  cases serving with
  | idle _ => exact h
  | waits _ _ =>
    refine ⟨h.inside, fun c hc => (h.dueOrDone c hc).imp_left fun hdue => ?_⟩
    rcases List.mem_cons.1 (Sink.isDue_of_nothing.1 hdue) with rfl | hmem
    · exact .inr (.inl ⟨_, rfl⟩)
    · exact .inl hmem
  | zeroed due painted =>
    exact h.zeroed hg due (fun t ht => (due.tile_area hs.cache hg ht).2) painted
  | @copied _ _ t region _ _ _ _ due held valid copy =>
    obtain ⟨⟨id, ht⟩, ha⟩ := due.tile_area hs.cache hg rfl
    have htraced' := (hs.all_of_asks (durable_tracedTo _ _ _) htraced due.asks).1
    have hframed' := (hs.all_of_asks (durable_framed _) hframed due.asks).1
    exact h.copied hg due ha held (Sink.isValid_iff.1 valid).1 (htraced' id t ht)
      (hframed' id t ht) copy

theorem out_wake (p : Pull) (painted : Bool) : (p.wake painted).out = p.out := by
  rw [Pull.wake]
  split <;> rfl

theorem Pieced.wake {p : Pull} (h : Pieced e moves info size p) (painted : Bool) :
    Pieced e moves info size (p.wake painted) := by
  refine ⟨fun x y hxy => h.inside x y (out_wake p painted ▸ hxy), fun c hc => ?_⟩
  rw [Sink.isDue_wake, out_wake]
  exact h.dueOrDone c hc

/-- A step of a pull changes nothing of its region but bytes. -/
theorem out_of_serving {s s' : Sink} {amid : Nat} {p next : Pull} {job? : Option Job}
    (serving : Sink.Serving s amid p (s', .went next, job?)) :
    next.out = { p.out with bytes := next.out.bytes } := by
  cases serving with
  | idle _ => rfl
  | waits _ _ => rfl
  | zeroed _ painted => exact Region.eq_of_paint painted
  | copied _ _ _ copy => exact Region.eq_of_copyFrom copy

/-! ## Runs -/

section

variable {config : Config} {hasRuntime withMask : Bool} {s : Sink}

theorem pieced_run (hs : Sink.create info config hasRuntime withMask = .ok s)
    (hk : KeepFrames moves) : ∀ np ∈ ((ofSink s hasRuntime).run moves).pulls,
      np.2.out.IsFor info → Pieced (ofSink s hasRuntime) moves info s.size np.2 := by
  induction moves using List.reverseRecOn with
  | nil => exact fun np hnp => absurd hnp List.not_mem_nil
  | append_singleton moves move ih =>
    obtain ⟨hsound, hbase⟩ := sound_run hs moves
    have hinfo := info_run hs moves
    have hsize : ((ofSink s hasRuntime).run moves).sink.size = s.size := hbase.size
    have hpulls := fun np hnp hfor => (ih hk.of_append np hnp hfor).extend move
    rw [run_concat]
    refine hsound.forall_pulls_step (P := fun p => p.out.IsFor info →
      Pieced (ofSink s hasRuntime) (moves ++ [move]) info s.size p) hpulls ?_ ?_ ?_
    · intro rect out out' hr hb hout
      rw [hsize]
      exact pieced_of_buffer hr hb hout
    · intro p painted hp hout
      rw [out_wake] at hout
      exact (hp hout).wake painted
    · intro id amid p next s' job? hmem hp serving hout
      have hfor : p.out.IsFor info := by
        rw [out_of_serving serving] at hout
        exact ⟨hout.1, hout.2⟩
      have htraced : ((ofSink s hasRuntime).run moves).sink.cache.All
          (TracedTo (ofSink s hasRuntime) (moves ++ [move])) :=
        fun id t ht => ((traced_run hs moves).tiles id t ht).extend move
      have hframed := (framed_run hs hk.of_append).tiles
      have hpieced := hp hfor
      rw [← hinfo] at hframed hpieced ⊢
      rw [← hsize] at hpieced ⊢
      exact hpieced.serving hsound htraced hframed (hsound.onGrid _ hmem) serving

/-- A pull that finishes was done, and delivers its region. -/
theorem exists_pull_of_finished {id amid : Nat} {out : Region}
    (h : (e.advance id amid).2.1 = some (.finished out)) :
    ∃ p, (id, p) ∈ e.pulls ∧ p.isDone = true ∧ p.out = out := by
  rw [advance] at h
  cases hf : e.pulls.lookup id with
  | none =>
    rw [hf] at h
    cases h
  | some p =>
    rw [hf] at h
    dsimp only at h
    split at h
    · rename_i hd
      exact ⟨p, mem_of_lookup hf, hd, Turn.finished.inj (Option.some.inj h)⟩
    · -- a pull that makes a step does not finish with it
      generalize e.sink.serve p amid = r at h
      obtain ⟨s', served, job?⟩ := r
      cases served with
      | broke fault => cases h
      | went next =>
        replace h := Option.some.inj h
        split at h <;> cases h

theorem not_isDue_of_isDone {p : Pull} (h : p.isDone = true) (cell : Rect) :
    ¬ Sink.IsDue p cell := by
  obtain ⟨out, cells, wait⟩ := p
  cases cells with
  | cons c cells => cases h
  | nil =>
    cases wait with
    | nothing => exact fun hd => absurd (Sink.isDue_of_nothing.1 hd) List.not_mem_nil
    | computing _ _ => cases h
    | computed _ _ _ => cases h

/-- **What a pull delivers is made of whole pieces.**  In every run of a new sink whose sources
leave frames alone, when a pull into a region for the image has come to its end, the part of the
region in each cell of the grid is zero throughout, or is, pixel by pixel, what a single call that
completed left in the buffer for that very cell. -/
theorem pieces_of_finished (hs : Sink.create info config hasRuntime withMask = .ok s)
    {moves : List Move} (hk : KeepFrames moves) {id amid : Nat} {out : Region}
    (hf : (((ofSink s hasRuntime).run moves).advance id amid).2.1 = some (.finished out))
    (hout : out.IsFor info) {cell : Rect} (hcell : s.size.IsCell cell) :
    Piece (ofSink s hasRuntime) moves info out cell := by
  obtain ⟨p, hmem, hdone, rfl⟩ := exists_pull_of_finished hf
  exact ((pieced_run hs hk _ hmem hout).dueOrDone cell hcell).resolve_left
    (not_isDue_of_isDone hdone cell)

/-- Two cells and one tile, which is painted for the first and given up for the second.  That one is
dropped, so the pull has a piece of the first and zeros. -/
theorem pieces_of_finished_narrow :
    ∃ s out,
      Sink.create ⟨2, 1, 1, .uchar⟩ { Config.ofTileSize 1 1 with maxTiles := 1 } false false =
        .ok s ∧
      let moves := [.openPull ⟨0, 0, 2, 1⟩ (.empty ⟨2, 1, 1, .uchar⟩) ⟨_, rfl, rfl⟩, .advance 0 0,
        .begin 1, .finish 1 .pattern, .advance 0 0, .advance 0 0, .begin 2, .drop 2, .advance 0 0]
      (((ofSink s false).run moves).advance 0 0).2.1 = some (.finished out) ∧
        Piece (ofSink s false) moves ⟨2, 1, 1, .uchar⟩ out ⟨0, 0, 1, 1⟩ ∧
        Piece (ofSink s false) moves ⟨2, 1, 1, .uchar⟩ out ⟨1, 0, 1, 1⟩ := by
  have hk : KeepFrames [.openPull ⟨0, 0, 2, 1⟩ (.empty ⟨2, 1, 1, .uchar⟩) ⟨_, rfl, rfl⟩,
      .advance 0 0, .begin 1, .finish 1 .pattern, .advance 0 0, .advance 0 0, .begin 2, .drop 2,
      .advance 0 0] := by
    intro n source hm
    have hs : n = 1 ∧ source = .pattern := by simpa using hm
    exact hs.2 ▸ keepsFrame_pattern
  have h := @pieces_of_finished ⟨2, 1, 1, .uchar⟩ { Config.ofTileSize 1 1 with maxTiles := 1 }
    false false _ rfl _ hk 0 0 _ rfl ⟨rfl, rfl⟩
  exact ⟨_, _, rfl, rfl, @h ⟨0, 0, 1, 1⟩ ⟨rfl, rfl, ⟨0, rfl⟩, ⟨0, rfl⟩⟩,
    @h ⟨1, 0, 1, 1⟩ ⟨rfl, rfl, ⟨1, rfl⟩, ⟨0, rfl⟩⟩⟩

end

end TileCache.Engine
