/-
Walks over results.

Whoever has the results of a search may go on to the next document or to the
first that is not before a given one, in any order. Results are joined from rows
that stand at different places, and a move of the whole moves some of them and
not others; none of that shows. The results stand where someone would stand who
has the documents in a list and goes over it: one document on, or past those
that are before the target (`Move.onList`).

What is ahead on the results says where they stand, and a move leaves of it what
it leaves of the list (`InOrder.moved`), so one move keeps the two together, and
a walk does by induction on the moves (`Ahead.after_ok`). Between two moves the
store may be written to; a view goes on reading the same, and so the same stays
ahead (`Ahead.later`). The documents of the list are those that turn up for the
query.

Every move comes to its end. Its recursion is given fuel, and what it gives is
the same with any fuel from some amount on, which the budget exceeds
(`Results.Ends`): so it has not stopped for want of fuel.
-/
import Mathlib
import OrderedStore.Proofs.Browsing
import OrderedStore.Proofs.Readers
import OrderedStore.Proofs.Searches

namespace OrderedStore

namespace Results

variable {mem : Memory} {mems : Memory → Prop} {m : KeyMap Bytes} {r : ReadView}
  {U : List DocKey} {P : DocSet} {x : Results} {ds : List DocKey}

-- =================================================================== moves

/-- Results after several moves, each made at a moment of its own. -/
def after (r : ReadView) (x : Results) (mvs : List (Memory × Move)) : Except Failure Results :=
  mvs.foldlM (fun x p => x.moved p.1 r p.2) x

/-- A move comes to its end: from some fuel on, which is no more than is given,
it makes no difference how much there is. -/
def Ends (mem : Memory) (r : ReadView) (mv : Move) (x : Results) : Prop :=
  ∃ y, ∃ enough ≤ budget mem r x.rows, ∀ fuel, enough ≤ fuel → move mem r fuel mv x = .ok y

/-- Every move of results comes to its end. -/
theorem Ahead.ends (hU : Universe U) (hsize : U.length ≤ r.extent mem)
    (h : x.Ahead mem m r U P) (mv : Move) : x.Ends mem r mv := by
  obtain ⟨y, hmove, -, -⟩ := moves hU x.rows x P (Nat.le_refl _) h mv
  exact ⟨y, need U x.rows, need_rows_le_budget hsize x, hmove⟩

/-- A move of the results is a move over the list. -/
theorem Ahead.moved_ok (hU : Universe U) (hsize : U.length ≤ r.extent mem)
    (h : x.Ahead mem m r U P) (hds : InOrder P ds) (mv : Move) :
    ∃ y Q, x.moved mem r mv = .ok y ∧ y.Ahead mem m r U Q ∧ InOrder Q (mv.onList ds) := by
  obtain ⟨y, hmove, hahead, -⟩ := moves hU x.rows x P (Nat.le_refl _) h mv
  refine ⟨y, _, ?_, hahead, ?_⟩
  · rw [moved_eq]
    exact hmove _ (need_rows_le_budget hsize x)
  · rw [h.position_eq hU hds]
    exact hds.moved mv

/-- So is a walk, whatever goes on between its moves. -/
theorem Ahead.after_ok (hU : Universe U) (hlength : U.length ≤ m.size) (hr : r.ReadsAt mems m)
    (hmem : mems mem) (h : x.Ahead mem m r U P) (hds : InOrder P ds)
    {mvs : List (Memory × Move)} (hmvs : ∀ p ∈ mvs, mems p.1) :
    ∃ y Q, x.after r mvs = .ok y ∧ (∀ mem', mems mem' → y.Ahead mem' m r U Q) ∧
      InOrder Q (mvs.foldl (fun ds p => p.2.onList ds) ds) := by
  induction mvs generalizing mem x P ds with
  | nil => exact ⟨x, P, rfl, fun mem' hmem' => h.later hr hmem hmem', hds⟩
  | cons p mvs ih =>
      obtain ⟨hp, hmvs⟩ := List.forall_mem_cons.mp hmvs
      have hsize : U.length ≤ r.extent p.1 := le_trans hlength (hr.reads hp).size
      obtain ⟨x', P', hmoved, h', hds'⟩ := (h.later hr hmem hp).moved_ok hU hsize hds p.2
      obtain ⟨y, Q, hafter, hahead, horder⟩ := ih hp h' hds' hmvs
      refine ⟨y, Q, ?_, hahead, horder⟩
      unfold after at hafter ⊢
      rw [List.foldlM_cons, hmoved]
      exact hafter

end Results

-- ================================================================ searches

namespace IndexKeys

variable {mems : Memory → Prop} {m : KeyMap Bytes} {r : ReadView}

/-- The results of a search, made at any of the moments, are gone over like a
list: the documents of a set in order, each once. They are what the results give
one after the other; and however the results are moved, at whichever of the
moments, they stand where someone would stand who goes over the list, and each
further move comes to its end. -/
def WalksAsList (ks : IndexKeys) (mems : Memory → Prop) (r : ReadView) (q : Query) (P : DocSet) :
    Prop :=
  ∀ mem, mems mem → ∃ (x : Results) (ds : List DocKey), ks.search mem r q = .ok x ∧
    InOrder P ds ∧
    (∀ limit, ∃ hits, x.take mem r limit = .ok hits ∧ hits.map Prod.fst = ds.take limit) ∧
    ∀ mvs : List (Memory × Move), (∀ p ∈ mvs, mems p.1) → ∃ y, x.after r mvs = .ok y ∧
      y.position = (mvs.foldl (fun ds p => p.2.onList ds) ds).head? ∧
      ∀ mem', mems mem' → ∀ mv, y.Ends mem' r mv

/-- Whatever is read from, a search goes over what turns up. -/
theorem walksAsList_turnsUp (ks : IndexKeys) (hr : r.ReadsAt mems m) (q : Query) :
    ks.WalksAsList mems r q (ks.turnsUp m q) := by
  intro mem hmem
  have hU := ks.universe_postedDocs m
  have hlength := ks.length_postedDocs_le m
  have hsize {mem' : Memory} (hmem' : mems mem') : (ks.postedDocs m).length ≤ r.extent mem' :=
    le_trans hlength (hr.reads hmem').size
  obtain ⟨x, hx, hahead⟩ := search_ok (hr.reads hmem) (hsize hmem) q
  obtain ⟨ds, hds, -⟩ := hU.exists_inOrder fun _ => hahead.within
  refine ⟨x, ds, hx, hds, fun limit => Results.take_ok hU (hsize hmem) limit hahead hds,
    fun mvs hmvs => ?_⟩
  obtain ⟨y, Q, hafter, hahead', hds'⟩ := hahead.after_ok hU hlength hr hmem hds hmvs
  exact ⟨y, hafter, (hahead' mem hmem).position_eq hU hds', fun mem' hmem' mv =>
    (hahead' mem' hmem').ends hU (hsize hmem') mv⟩

end IndexKeys

-- ==================================================================== runs

namespace Store

open Engine

variable {dir : Path} {v v' : Volume} {settings : Settings} {clock : UInt64} {e : Engine}

/-- What is in memory at the moments of a run. -/
def Meanwhile (dir : Path) (s : Store) (later : List Request) (mem : Memory) : Prop :=
  ∃ reqs, reqs <+: later ∧ mem = (s.after dir reqs).toMemory

/-- What is read of a view at the moments of a run after it was taken, with
writes pending over it. -/
theorem readsAt_meanwhile (hv : Vacant v dir) (hopen : openAt settings dir clock v = .ok e v')
    (earlier before later : List Request)
    (hfits : ∀ op ∈ (opened v' e).trace dir earlier, op.Fits)
    (hbefore : ∀ r ∈ before, r.reopens = false) (hlater : ∀ r ∈ later, r.reopens = false)
    (htotal : Operation.logged ((opened v' e).trace dir (earlier ++ before ++ later))
      < UInt64.size) {r : ReadView}
    (hr : r.view = ((opened v' e).after dir (earlier ++ before)).engine.view) :
    r.ReadsAt (((opened v' e).after dir (earlier ++ before)).Meanwhile dir later)
      ((contents ((opened v' e).trace dir (earlier ++ before))).laid r.pending) := by
  refine ⟨_, rfl, ?_⟩
  rintro _ ⟨reqs, ⟨rest, rfl⟩, rfl⟩
  rw [hr, ← after_append]
  refine (view_reads hv hopen earlier before reqs hfits hbefore
    (fun r hr => hlater r (List.mem_append_left _ hr)) ?_).2
  rw [← List.append_assoc, trace_append, Operation.logged_append] at htotal
  omega

/-- Seeking is going on, only faster. For every view that was taken in a run, as
it is or with writes of a transaction pending over it, for the keys of any index
and every query: at every later moment the search has results, which are gone
over like the list of the documents that turn up. Whatever is moved, and whatever
is asked of the store in between, they are never before or behind the place in
the list, and every move comes to its end. -/
theorem search_walks_as_list (hv : Vacant v dir) (hopen : openAt settings dir clock v = .ok e v')
    (earlier before later : List Request)
    (hfits : ∀ op ∈ (opened v' e).trace dir earlier, op.Fits)
    (hbefore : ∀ r ∈ before, r.reopens = false) (hlater : ∀ r ∈ later, r.reopens = false)
    (htotal : Operation.logged ((opened v' e).trace dir (earlier ++ before ++ later))
      < UInt64.size) (r : ReadView)
    (hr : r.view = ((opened v' e).after dir (earlier ++ before)).engine.view)
    (ks : IndexKeys) (q : Query) :
    ks.WalksAsList (((opened v' e).after dir (earlier ++ before)).Meanwhile dir later) r q
      (ks.turnsUp
        ((contents ((opened v' e).trace dir (earlier ++ before))).laid r.pending) q) :=
  ks.walksAsList_turnsUp
    (readsAt_meanwhile hv hopen earlier before later hfits hbefore hlater htotal hr) q

/-- The keys of a sample index. -/
def sampleKeys : IndexKeys :=
  .ofName "a"

/-- What is written of three documents: the first has the term of the first
token, the last that of the second, which is shown by its word, and the one
between them has both. -/
def filed : List Operation :=
  [.put (sampleKeys.lexicon "s" "") (LexiconEntry.encode ⟨1, 2⟩),
    .put (sampleKeys.lexicon "t" "T") (LexiconEntry.encode ⟨2, 2⟩),
    .put (sampleKeys.posting 1 ⟨"1", "d"⟩) [], .put (sampleKeys.posting 1 ⟨"2", "e"⟩) [],
    .put (sampleKeys.posting 2 ⟨"2", "e"⟩) [], .put (sampleKeys.posting 2 ⟨"3", "f"⟩) []]

/-- A run that writes it. -/
def filedRun : List Request :=
  [.writeBatch filed]

/-- It logs one batch. -/
theorem trace_filedRun (s : Store) : s.trace dir filedRun = [.batch filed] := by
  have hlog : (Operation.batch filed).Loggable := by decide +kernel
  show [Operation.batch filed].filter (fun op => op.Loggable) ++ [] = _
  rw [List.append_nil, List.filter_eq_self]
  exact fun op hop => decide_eq_true (List.mem_singleton.mp hop ▸ hlog)

/-- A run after it, which takes the last document out. -/
def unfiledRun : List Request :=
  [.delete (sampleKeys.posting 2 ⟨"3", "f"⟩)]

/-- A query that finds the documents with both terms, and those with a term that
begins like the second. -/
def sampleQuery : Query :=
  .any [.all [.term "s", .term "t"], .beginning "t"]

/-- What the runs log can be read back, and takes few bytes. -/
theorem fits_filedRun (dir : Path) (s : Store) :
    (∀ op ∈ s.trace dir filedRun, op.Fits) ∧
      Operation.logged (s.trace dir (filedRun ++ [.view] ++ unfiledRun)) < UInt64.size := by
  rw [trace_append, trace_append, trace_filedRun]
  show _ ∧ Operation.logged (_ ++ [] ++ [.delete (sampleKeys.posting 2 ⟨"3", "f"⟩)]) < _
  decide +kernel

/-- In a view that was taken before the last document was taken out, whoever
seeks from before the second document, and goes on after that, stands on the
third. -/
theorem search_walks_as_list_filedRun :
    ∃ e v' x y, openAt Settings.standard ["db"] 0 Volume.empty = .ok e v' ∧
      let s := (opened v' e).after ["db"] (filedRun ++ [.view])
      let s' := s.after ["db"] unfiledRun
      let r := ReadView.pinned s.engine.view
      sampleKeys.search s.toMemory r sampleQuery = .ok x ∧
        x.after r [(s.toMemory, .seek ⟨"2", ""⟩), (s'.toMemory, .next)] = .ok y ∧
        y.position = some ⟨"3", "f"⟩ ∧ ∀ mv, y.Ends s'.toMemory r mv := by
  have hfound : ends (openAt Settings.standard ["db"] 0) Volume.empty (fun e v =>
      let s := (opened v e).after ["db"] (filedRun ++ [.view])
      let r := ReadView.pinned s.engine.view
      ((sampleKeys.search s.toMemory r sampleQuery).bind fun x =>
        x.take s.toMemory r 3).toOption.map (List.map Prod.fst)
          == some [⟨"2", "e"⟩, ⟨"3", "f"⟩]) = true := by
    decide +kernel
  obtain ⟨e, v', hopen, hfound⟩ := of_ends hfound
  obtain ⟨hfits, htotal⟩ := fits_filedRun ["db"] (opened v' e)
  have hwalks := search_walks_as_list (vacant_empty ["db"]) hopen filedRun [.view] unfiledRun hfits
    (by decide) (by decide) htotal
  -- without a name for the store it would be run to see that it is the same
  set s := (opened v' e).after ["db"] (filedRun ++ [.view])
  have hnow : s.Meanwhile ["db"] unfiledRun s.toMemory := ⟨[], List.nil_prefix, rfl⟩
  have hthen : s.Meanwhile ["db"] unfiledRun (s.after ["db"] unfiledRun).toMemory :=
    ⟨unfiledRun, List.prefix_refl _, rfl⟩
  obtain ⟨x, ds, hx, -, htake, hwalk⟩ :=
    hwalks (.pinned s.engine.view) rfl sampleKeys sampleQuery s.toMemory hnow
  -- three are asked for and two are found, so they are all
  obtain ⟨hits, hhits, hdocs⟩ := htake 3
  have htwo : ds.take 3 = [⟨"2", "e"⟩, ⟨"3", "f"⟩] := by
    dsimp only at hfound
    rw [hx] at hfound
    change ((x.take _ _ 3).toOption.map (List.map Prod.fst) == _) = true at hfound
    rw [hhits] at hfound
    rw [← hdocs]
    exact Option.some.inj (beq_iff_eq.mp hfound)
  have hds : ds = [⟨"2", "e"⟩, ⟨"3", "f"⟩] := by
    have hlength := congrArg List.length htwo
    rw [List.length_take] at hlength
    rw [← htwo, List.take_of_length_le]
    change min 3 ds.length = 2 at hlength
    omega
  subst hds
  have hthird : ([Move.seek ⟨"2", ""⟩, .next].foldl (fun ds mv => mv.onList ds)
      [⟨"2", "e"⟩, ⟨"3", "f"⟩]).head? = some ⟨"3", "f"⟩ := by
    decide +kernel
  obtain ⟨y, hy, hpos, hends⟩ :=
    hwalk [(s.toMemory, .seek ⟨"2", ""⟩), ((s.after ["db"] unfiledRun).toMemory, .next)]
      (List.forall_mem_cons.mpr ⟨hnow, List.forall_mem_singleton.mpr hthen⟩)
  exact ⟨e, v', x, y, hopen, hx, hy, hpos.trans hthird, hends _ hthen⟩

end Store

end OrderedStore
