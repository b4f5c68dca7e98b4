/-
Turns that one index takes, on two databases.

What an index is asked for is a row of turns: calls on it, and the database is
closed, or dropped, and opened again (`Moment.Takes`). Where the desks of the
index are abreast at two moments, a row of turns that is carried out at both
answers the same tokens, and leaves desks abreast (`Moment.Takes.abreast`). It
does not matter whether the database is closed or dropped then.

A request for a token fails only where a new one would be given, and what is
logged for it is too large (`Index.runs_tokenOf`). That is the same at both
moments, so a token that is answered at one of them can be had at the other
(`Moment.Abreast.has_token`).
-/
import Mathlib
import OrderedStore.Proofs.Numbering

namespace OrderedStore

open IndexKeys Index

-- ================================================================== asking

namespace Index

variable {ks : IndexKeys} {m : KeyMap Bytes} {term raw : String}

/-- What is logged when a term gets a token. -/
def loggedFor (ks : IndexKeys) (term raw : String) (token : UInt64) : List Operation :=
  Operation.together ((ks.entriesOf term raw token).entries.map Transaction.operation)

/-- A token is minted, unless what is logged for it is too large. -/
theorem runs_mint (h : ks.Paired m) (term raw : String) :
    Runs (fun _ ops => contents ops = m) (mint ks (ks.lexicon term raw))
      (fun _ _ ops => ∀ op ∈ loggedFor ks term raw (ks.fresh m), op ∈ ops)
      fun _ => ∃ op ∈ loggedFor ks term raw (ks.fresh m), ¬op.Loggable := by
  have hcommit (token : UInt64) : Runs (fun _ _ => token = ks.fresh m)
      ((minting ks term raw token).commit >>= fun _ => pure token)
      (fun _ _ ops => ∀ op ∈ loggedFor ks term raw (ks.fresh m), op ∈ ops)
      fun _ => ∃ op ∈ loggedFor ks term raw (ks.fresh m), ¬op.Loggable := by
    refine Runs.bind (Q := fun _ _ ops => ∀ op ∈ loggedFor ks term raw (ks.fresh m), op ∈ ops) ?_
      fun _ => runs_pure fun _ _ hops => hops
    refine Runs.bind (Q := fun _ _ ops => ∀ op ∈ loggedFor ks term raw (ks.fresh m), op ∈ ops)
      (Runs.bind (runs_writeBatch (Transaction.single_operation _) ?_ ?_) fun _ =>
        runs_pure fun _ _ hops => hops) fun flushed => ?_
    · intro s s' ops htoken _ op hop
      rw [← htoken] at hop
      exact List.mem_append_right _ hop
    · intro s ops htoken op hop hlong n
      rw [← htoken]
      exact ⟨op, hop, hlong⟩
    · have htriggers : (minting ks term raw token).triggers = [] := rfl
      rw [htriggers, List.mapM_nil]
      exact Runs.bind (runs_pure fun _ _ hops => hops) fun _ => runs_pure fun _ _ hops => hops
  have hnext := h.next
  unfold mint
  refine Runs.bind (Q := fun found _ _ => found = m.find? ks.nextToken)
    (runs_lookup ks.nextToken fun hops => hops ▸ rfl) fun found => ?_
  cases found with
  | none =>
      refine Runs.bind (runs_pure fun _ _ hfound => ?_) hcommit
      unfold fresh
      rw [← hfound]
  | some bytes =>
      dsimp only
      cases hbytes : (Codec.readFixed64 bytes).1 with
      | error e =>
          refine Runs.bind (Q := fun token _ _ => token = ks.fresh m)
            (runs_throw fun _ _ hfound => ?_) hcommit
          unfold nextIn at hnext
          rw [← hfound] at hnext
          simp only [hbytes] at hnext
          exact absurd hnext (Nat.lt_irrefl 0)
      | ok token =>
          refine Runs.bind (runs_pure fun _ _ hfound => ?_) hcommit
          unfold fresh
          rw [← hfound]
          simp only [hbytes]

/-- The token of a lexicon key is read. -/
theorem runs_readToken (ks : IndexKeys) (m : KeyMap Bytes) (term raw : String)
    {E : Failure → Prop} :
    Runs (fun _ ops => contents ops = m) (readToken (ks.lexicon term raw))
      (fun found _ ops => contents ops = m ∧ found = ks.tokenIn m term raw) E := by
  refine Runs.bind (Q := fun found _ ops => contents ops = m ∧ found = m.find? (ks.lexicon term raw))
    (runs_lookup _ fun hops => ⟨hops, hops ▸ rfl⟩) fun found => ?_
  cases found with
  | none =>
      refine runs_pure fun _ ops hfound => ⟨hfound.1, ?_⟩
      unfold tokenIn
      rw [← hfound.2]
      rfl
  | some bytes =>
      dsimp only
      cases hdecode : LexiconEntry.decode bytes with
      | ok e =>
          refine runs_pure fun _ ops hfound => ⟨hfound.1, ?_⟩
          unfold tokenIn
          rw [← hfound.2, Option.bind_some, hdecode]
          rfl
      | error f =>
          refine runs_pure fun _ ops hfound => ⟨hfound.1, ?_⟩
          unfold tokenIn
          rw [← hfound.2, Option.bind_some, hdecode]
          rfl

/-- Asking for a token fails only if the term has none, and what is logged when
it gets one is too large. -/
theorem runs_tokenOf (x : Index) (h : x.keys.Paired m) (hkept : KeptIn x.keys x.cache m)
    (term raw : String) :
    Runs (fun _ ops => contents ops = m) (x.tokenOf term raw)
      (fun _ _ ops => x.keys.tokenIn m term (stored term raw) = none →
        ∀ op ∈ loggedFor x.keys term (stored term raw) (x.keys.fresh m), op ∈ ops)
      fun _ => x.keys.tokenIn m term (stored term raw) = none ∧
        ∃ op ∈ loggedFor x.keys term (stored term raw) (x.keys.fresh m), ¬op.Loggable := by
  unfold tokenOf
  dsimp only
  cases hcache : x.cache.find? term (stored term raw) with
  | some token =>
      refine runs_pure fun _ ops _ hnone => ?_
      rw [hkept hcache] at hnone
      cases hnone
  | none =>
      refine (runs_readToken x.keys m term (stored term raw)).bind fun found => ?_
      cases found with
      | some token =>
          refine Runs.bind
            (Q := fun _ _ _ => some token = x.keys.tokenIn m term (stored term raw))
            (runs_pure fun _ _ hfound => hfound.2) fun _ => runs_pure fun _ _ hfound hnone => ?_
          rw [hnone] at hfound
          cases hfound
      | none =>
          have hmint := runs_mint h term (stored term raw)
          refine Runs.bind (Runs.mono_fails (hmint.mono (fun _ _ hfound => hfound.1)
            fun _ _ _ hops => hops) ?_) fun token => runs_pure fun _ _ hops _ => hops
          intro s ops hfound f hlong
          exact ⟨hfound.2.symm, hlong⟩

end Index

namespace Call

variable {ν : Type} {σ τ : Session ν} {s s' : Store} {name term raw : String} {i : Nat}

/-- With a handle a token was asked for of that. -/
theorem of_token_ok {x : Index} (hx : σ.handles i = some x)
    (h : (Call.token i term raw).run name σ s = .ok τ s') :
    ∃ a, x.tokenOf term raw s = .ok a s' := by
  change σ.handling i _ s = _ at h
  unfold Session.handling at h
  rw [hx] at h
  obtain ⟨a, s₁, hask, hrest⟩ := of_bind_ok h
  cases hrest
  exact ⟨a, hask⟩

/-- If it was not answered there was a handle that was asked. -/
theorem of_token_error {e : Fatal} (h : (Call.token i term raw).run name σ s = .error e s') :
    ∃ x, σ.handles i = some x ∧ x.tokenOf term raw s = .error e s' := by
  change σ.handling i _ s = _ at h
  unfold Session.handling at h
  cases hx : σ.handles i with
  | none =>
      rw [hx] at h
      cases h
  | some x =>
      rw [hx] at h
      rcases of_bind_error h with hask | ⟨a, s₁, -, hrest⟩
      · exact ⟨x, rfl, hask⟩
      · cases hrest

end Call

-- =================================================================== turns

/-- What comes next where one index is asked: a call, or the database is opened
again. -/
inductive Turn
  | call (c : Call)
  | reopened

namespace Moment

open Store Engine Desk

variable {ν : Type} {dir : Path} {name : String} {M M' M₁ M₁' : Moment ν} {turn : Turn}
  {turns : List Turn} {answers answers' : List Answer} {ops ops' : List Operation}

/-- What a turn leads to, and the tokens that it answers. -/
inductive Turns (dir : Path) (name : String) (M : Moment ν) :
    Turn → List Answer → Moment ν → Prop
  | call {c : Call} {τ : Session ν} {s : Store}
      (hrun : c.run name (M.sessions.session name) M.store = .ok τ s) :
      Turns dir name M (.call c) τ.answers ⟨M.earlier, M.sessions.setSession name τ, s⟩
  | closed {s : Store} {v : Volume} {settings : Settings} {clock : UInt64} {e : Engine}
      (hclose : Database.close M.store = .ok () s)
      (hopen : openAt settings dir clock s.volume = .ok e v) :
      Turns dir name M .reopened [] ⟨M.earlier + s.written, .blank, opened v e⟩
  | dropped {v : Volume} {settings : Settings} {clock : UInt64} {e : Engine}
      (hlog : (Log.scan (M.store.volume.content M.store.engine.log.file)).fault = none)
      (hopen : openAt settings dir clock M.store.volume = .ok e v) :
      Turns dir name M .reopened [] ⟨M.earlier + M.store.written, .blank, opened v e⟩

/-- What a row of turns leads to, and the tokens that they answer, in order. -/
inductive Takes (dir : Path) (name : String) : List Turn → List Answer → Moment ν → Moment ν → Prop
  | done {M : Moment ν} : Takes dir name [] [] M M
  | next {turn : Turn} {turns : List Turn} {given answers : List Answer} {M M₁ M' : Moment ν}
      (hturn : M.Turns dir name turn given M₁) (hrest : Takes dir name turns answers M₁ M') :
      Takes dir name (turn :: turns) (given ++ answers) M M'

/-- A turn is something that can come next. -/
theorem Turns.next (h : M.Turns dir name turn answers M₁) (hname : Index.isValidName name = true) :
    M.Next dir (fun _ _ => True) M₁ := by
  cases h with
  | call hrun => exact .call hname trivial hrun
  | closed hclose hopen => exact .closed hclose hopen
  | dropped hlog hopen => exact .dropped hlog hopen

/-- In a row of turns what was written becomes no less. -/
theorem Takes.written_le (h : Takes dir name turns answers M M')
    (hname : Index.isValidName name = true) (hM : M.sessions.Ready) : M.written ≤ M'.written := by
  induction h with
  | done => exact Nat.le_refl _
  | next hturn hrest ih =>
      exact ((hturn.next hname).written_le hM).trans (ih ((hturn.next hname).ready hM))

/-- Where a call leads the desk of the index. -/
theorem Turns.called {c : Call} (h : M.Turns dir name (.call c) answers M₁)
    (hM : M.sessions.Ready) (hroom : M₁.written < UInt64.size)
    (hs : M.store.Measured dir M.earlier ops) :
    ∃ ops₁ : List Operation, M₁.store.Measured dir M₁.earlier ops₁ ∧
      let δ := c.effect name ((M.sessions.session name).desk (contents ops))
      (M₁.sessions.session name).desk (contents ops₁) = δ.lend δ.handles ∧ answers = δ.answers ∧
        c.HasRoom name ((M.sessions.session name).desk (contents ops)) := by
  cases h with
  | @call c τ s hrun =>
      obtain ⟨ops₁, hs₁, hdesk, hcall⟩ := Call.measured_run (hM name) hrun hs hroom
      have hhandles : (M.sessions.setSession name τ).handles name = τ.handles :=
        Function.update_self name _ _
      refine ⟨ops₁, hs₁, ?_, ?_, hcall⟩
      · rw [← hdesk]
        exact congrArg (fun handles => Desk.mk (contents ops₁) handles
          (fun t => (τ.drafts t).map Transaction.pending) []) hhandles
      · rw [← hdesk]
        rfl

/-- Where it leads when the database is opened again. -/
theorem Turns.reopened (h : M.Turns dir name .reopened answers M₁)
    (hroom : M₁.written < UInt64.size) (hs : M.store.Measured dir M.earlier ops) :
    M₁.store.Measured dir M₁.earlier ops ∧ M₁.sessions = .blank ∧ answers = [] := by
  unfold written at hroom
  cases h with
  | closed hclose hopen =>
      have hwritten := written_flush (of_orFatal hclose)
      dsimp only at hroom
      exact ⟨hs.closed (of_orFatal hclose) (by omega) hopen, rfl, rfl⟩
  | dropped hlog hopen =>
      dsimp only at hroom
      exact ⟨hs.dropped hlog (by omega) hopen, rfl, rfl⟩

/-- Two moments at which the desks of an index are abreast. -/
def Abreast (dir : Path) (name : String) (M M' : Moment ν) : Prop :=
  ∃ ops ops' : List Operation, M.store.Measured dir M.earlier ops ∧
    M'.store.Measured dir M'.earlier ops' ∧
    Desk.Abreast name ((M.sessions.session name).desk (contents ops))
      ((M'.sessions.session name).desk (contents ops'))

/-- A turn answers the same at both, and leaves them abreast. -/
theorem Turns.abreast (h : M.Turns dir name turn answers M₁)
    (h' : M'.Turns dir name turn answers' M₁') (habreast : Abreast dir name M M')
    (hM : M.sessions.Ready) (hM' : M'.sessions.Ready)
    (hown : ∀ c, turn = .call c → c.Own (ofName name))
    (hroom : M₁.written < UInt64.size) (hroom' : M₁'.written < UInt64.size) :
    answers' = answers ∧ Abreast dir name M₁ M₁' := by
  obtain ⟨ops, ops', hs, hs', hdesks⟩ := habreast
  cases turn with
  | call c =>
      obtain ⟨ops₁, hs₁, hdesk, hanswers, hcall⟩ := h.called hM hroom hs
      obtain ⟨ops₁', hs₁', hdesk', hanswers', hcall'⟩ := h'.called hM' hroom' hs'
      have heffect := hdesks.effect (hown c rfl) hcall hcall'
      refine ⟨?_, ops₁, ops₁', hs₁, hs₁', ?_⟩
      · rw [hanswers, hanswers']
        exact heffect.answers
      · rw [hdesk, hdesk']
        exact heffect.lend_self
  | reopened =>
      obtain ⟨hs₁, hblank, rfl⟩ := h.reopened hroom hs
      obtain ⟨hs₁', hblank', rfl⟩ := h'.reopened hroom' hs'
      refine ⟨rfl, ops, ops', hs₁, hs₁', ?_⟩
      rw [hblank, hblank']
      exact hdesks.left

/-- So does a row of turns. -/
theorem Takes.abreast (h : Takes dir name turns answers M M₁)
    (h' : Takes dir name turns answers' M' M₁') (habreast : Abreast dir name M M')
    (hM : M.sessions.Ready) (hM' : M'.sessions.Ready) (hname : Index.isValidName name = true)
    (hown : ∀ c, .call c ∈ turns → c.Own (ofName name))
    (hroom : M₁.written < UInt64.size) (hroom' : M₁'.written < UInt64.size) :
    answers' = answers ∧ Abreast dir name M₁ M₁' := by
  induction h generalizing M' answers' with
  | done =>
      cases h'
      exact ⟨rfl, habreast⟩
  | next hturn hrest ih =>
      cases h' with
      | next hturn' hrest' =>
          have hready := (hturn.next hname).ready hM
          have hready' := (hturn'.next hname).ready hM'
          have hle := hrest.written_le hname hready
          have hle' := hrest'.written_le hname hready'
          obtain ⟨hfirst, hnext⟩ := hturn.abreast hturn' habreast hM hM'
            (fun c hc => hown c (hc ▸ List.mem_cons_self)) (by omega) (by omega)
          obtain ⟨hlater, hlast⟩ := ih hrest' hnext hready hready'
            (fun c hc => hown c (List.mem_cons_of_mem _ hc)) hroom
          exact ⟨by rw [hfirst, hlater], hlast⟩

/-- A token that is answered at one of them can be had at the other, too, as
long as what is written can be counted: the same is logged for it. -/
theorem Abreast.has_token {i : Nat} {term raw : String} {e : Fatal} {s' : Store}
    (habreast : Abreast dir name M M') (h : M.Turns dir name (.call (.token i term raw)) answers M₁)
    (hroom : M₁.written < UInt64.size)
    (h' : (Call.token i term raw).run name (M'.sessions.session name) M'.store = .error e s') :
    UInt64.size ≤ M'.earlier + s'.written := by
  by_contra hlt
  obtain ⟨ops, ops', hs, hs', hdesks⟩ := habreast
  obtain ⟨x', hx', hask'⟩ := Call.of_token_error h'
  have hopen := hdesks.sameOpen.handles i
  change ((M'.sessions.session name).handles i).isSome
    = ((M.sessions.session name).handles i).isSome at hopen
  rw [hx'] at hopen
  obtain ⟨x, hx⟩ := Option.isSome_iff_exists.mp hopen.symm
  have hpaired := hdesks.obeys.held.1.paired
  have hpaired' := hdesks.obeys'.held.1.paired
  obtain ⟨hkeys, hkept⟩ := hdesks.obeys.handles hx
  obtain ⟨hkeys', hkept'⟩ := hdesks.obeys'.handles hx'
  have hreverse := hdesks.reverse
  rw [← hkeys] at hpaired hkept hreverse
  rw [← hkeys'] at hpaired' hkept'
  obtain ⟨hnone, op, hop, hlong⟩ := ((runs_tokenOf x' hpaired' hkept' term raw).fails hask').2 hs'
    (not_le.mp hlt) rfl
  cases h with
  | call hrun =>
      obtain ⟨a, hask⟩ := Call.of_token_ok hx hrun
      obtain ⟨-, hlead⟩ := (runs_tokenOf x hpaired hkept term raw).ends hask
      obtain ⟨ops₁, hs₁, -, hlogged⟩ := hlead hs hroom rfl
      rw [hkeys'.trans hkeys.symm] at hpaired' hnone hop
      have hnone' := (hpaired.tokenIn_eq hpaired' hreverse _ _).symm.trans hnone
      have hfresh := hpaired.fresh_eq hpaired' hreverse
      exact hlong (hs₁.logged op (hlogged hnone' op (hfresh ▸ hop))).2

end Moment

end OrderedStore
