/-
Indexes of different names on one database.

No key begins with the leads of two names, so a run on one index is for another
one what foreign writes are. Two things stay as they were (`Moment.Spared`):
all keys elsewhere, and the balance of all books. What is asked of the other
index is answered by its keys, which are the same (`Moment.Spared.counterparts`),
and tokens that it gives later are a matter of those that it has given, which
lead back as they did (`Moment.Spared.abreast`).

A run may close the database and open it again. Of the handles that are open
when it begins it may leave none, and what is pending in a transaction is not in
the database, so moments are compared with the handles that are open at both
(`Moment.alongside`).
-/
import Mathlib
import OrderedStore.Proofs.Counterparts
import OrderedStore.Proofs.Reclaiming
import OrderedStore.Proofs.Turns

namespace OrderedStore

open Store Engine IndexKeys

-- ============================================================ open at both

namespace Sessions

variable {ν : Type} {σ σ' : Sessions ν} {name : String} {i : Nat}

/-- The handles that are open in other sessions, too. -/
def inCommon (σ σ' : Sessions ν) : Sessions ν :=
  ⟨fun name i => if (σ'.handles name i).isSome then σ.handles name i else none, fun _ => none⟩

/-- They are handles of their own. -/
theorem handles_of_inCommon {x : Index} (h : (σ.inCommon σ').handles name i = some x) :
    σ.handles name i = some x := by
  change (if (σ'.handles name i).isSome then σ.handles name i else none) = some x at h
  split at h
  · exact h
  · cases h

/-- The same are open in both. -/
theorem isSome_inCommon (σ σ' : Sessions ν) (name : String) (i : Nat) :
    ((σ'.inCommon σ).handles name i).isSome = ((σ.inCommon σ').handles name i).isSome := by
  show (if (σ.handles name i).isSome then σ'.handles name i else none).isSome
    = (if (σ'.handles name i).isSome then σ.handles name i else none).isSome
  cases σ.handles name i <;> cases σ'.handles name i <;> rfl

/-- Sessions are ready with fewer handles. -/
theorem Ready.inCommon (h : σ.Ready) (σ' : Sessions ν) : (σ.inCommon σ').Ready :=
  fun name => ⟨fun hx => (h name).keys (handles_of_inCommon hx), nofun⟩

end Sessions

/-- A desk obeys with fewer handles and without transactions. -/
theorem Desk.Obeys.fewer {R : Rule} {δ : Desk} {handles : Nat → Option Index} (h : δ.Obeys R)
    (hhandles : ∀ {i x}, handles i = some x → δ.handles i = some x) :
    (⟨δ.held, handles, fun _ => none, []⟩ : Desk).Obeys R := by
  refine ⟨fun {place s} hs => ?_, fun hx => h.handles (hhandles hx), fun a ha =>
    absurd ha List.not_mem_nil⟩
  cases place with
  | none =>
      cases hs
      exact h.held
  | some t => cases hs

-- ======================================================== before and after

namespace Moment

variable {ν : Type} {dir : Path} {first second : String} {M₀ M M' : Moment ν}
  {ops ops' : List Operation}

/-- The moment with the handles that are open at another one, too. -/
def alongside (M M' : Moment ν) : Moment ν :=
  { M with sessions := M.sessions.inCommon M'.sessions }

/-- The books of all indexes are in balance at both moments, and the store at the
second one holds what it held at the first but for keys of one index. -/
structure Spared (dir : Path) (first : String) (M M' : Moment ν) (ops ops' : List Operation) :
    Prop where
  ready : M.sessions.Ready
  ready' : M'.sessions.Ready
  measured : M.store.Measured dir M.earlier ops
  measured' : M'.store.Measured dir M'.earlier ops'
  sound : (M.sessions.office (contents ops)).Sound
  sound' : (M'.sessions.office (contents ops')).Sound
  same : ∀ {k}, ¬(ofName first).lead <+: k → (contents ops').find? k = (contents ops).find? k

/-- Nothing is open at first. -/
theorem Fresh.ready (h : M₀.Fresh dir) : M₀.sessions.Ready := by
  obtain ⟨v, v', settings, clock, e, hv, hopen, rfl⟩ := h
  exact Sessions.ready_blank

/-- Where nobody else writes under their keys the books of all indexes are in
balance. -/
theorem Fresh.sound (h : M₀.Fresh dir)
    (hreach : Relation.ReflTransGen (Next dir Call.Civil) M₀ M) (hroom : M.written < UInt64.size) :
    ∃ ops, M.store.Measured dir M.earlier ops ∧ (M.sessions.office (contents ops)).Sound := by
  obtain ⟨v, v', settings, clock, e, hv, hopen, rfl⟩ := h
  obtain ⟨e₁, v₁, ids, hopen₁, hsound⟩ := hv.openAt_ok settings clock
  rw [hopen] at hopen₁
  cases hopen₁
  obtain ⟨ops, hs, hoffice⟩ := reaches hreach Sessions.ready_blank hroom hsound.measured
  exact ⟨ops, hs, Office.sound_blank.reaches hoffice⟩

/-- A run on one index spares the others. -/
theorem Fresh.spared (h : M₀.Fresh dir)
    (hbefore : Relation.ReflTransGen (Next dir Call.Civil) M₀ M)
    (hrun : Relation.ReflTransGen (Next dir (Call.Only first)) M.setAside M')
    (hroom : M'.written < UInt64.size) : ∃ ops ops', Spared dir first M M' ops ops' := by
  obtain ⟨hready, -⟩ := ready_reaches hbefore h.ready
  obtain ⟨hready', hle⟩ := ready_reaches hrun hready.setAside
  obtain ⟨ops, hs, hsound⟩ := h.sound hbefore (lt_of_le_of_lt hle hroom)
  obtain ⟨ops', hs', hoffice⟩ := reaches hrun hready.setAside hroom hs
  obtain ⟨hsound', hkeeps⟩ := hsound.keeps hoffice
  exact ⟨ops, ops', hready, hready', hs, hs', hsound, hsound', hkeeps.held⟩

/-- So another index has the same keys. -/
theorem Spared.counterparts (h : Spared dir first M M' ops ops')
    (hapart : ∀ k, (ofName second).lead <+: k → ¬(ofName first).lead <+: k) :
    (ofName second).Counterparts M.store.toMemory (.pinned M.store.engine.view) (contents ops)
      M'.store.toMemory (.pinned M'.store.engine.view) (contents ops') :=
  ⟨ReadView.reads_pinned h.measured.reads, ReadView.reads_pinned h.measured'.reads,
    fun k hk => h.same (hapart k hk)⟩

/-- And with the handles that are open at both its desks are abreast. -/
theorem Spared.abreast (h : Spared dir first M M' ops ops')
    (hsecond : Index.isValidName second = true)
    (hapart : ∀ k, (ofName second).lead <+: k → ¬(ofName first).lead <+: k) :
    Abreast dir second (M.alongside M') (M'.alongside M) := by
  refine ⟨ops, ops', h.measured, h.measured', ?_⟩
  refine ⟨(h.sound hsecond).fewer Sessions.handles_of_inCommon,
    (h.sound' hsecond).fewer Sessions.handles_of_inCommon,
    ⟨Sessions.isSome_inCommon M.sessions M'.sessions second, fun _ => rfl⟩, fun token => ?_, rfl⟩
  exact h.same (hapart _ (lead_of_lexical (lexical_reverse _ token)))

end Moment

-- =================================================================== calls

/-- Carries out calls on the indexes of names, one after the other. -/
def Sessions.runAll {ν : Type} : List (String × Call) → Sessions ν → DbM (Sessions ν)
  | [], σ => return σ
  | (name, c) :: cs, σ => do
    let τ ← c.run name (σ.session name)
    runAll cs (σ.setSession name τ)

/-- Carries out calls on the index of one name, and gathers what they answer. -/
def Sessions.askAll {ν : Type} (name : String) :
    List Call → Sessions ν → DbM (List Answer × Sessions ν)
  | [], σ => return ([], σ)
  | c :: cs, σ => do
    let τ ← c.run name (σ.session name)
    let (answers, σ) ← askAll name cs (σ.setSession name τ)
    return (τ.answers ++ answers, σ)

namespace Moment

variable {ν : Type} {dir : Path} {earlier : Nat} {σ σ' : Sessions ν} {s s' : Store}

/-- Such calls lead from one moment to another. -/
theorem reaches_runAll {Allowed : String → Call → Prop} {cs : List (String × Call)}
    (hcs : ∀ p ∈ cs, Index.isValidName p.1 = true ∧ Allowed p.1 p.2)
    (hrun : Sessions.runAll cs σ s = .ok σ' s') :
    Relation.ReflTransGen (Next dir Allowed) ⟨earlier, σ, s⟩ ⟨earlier, σ', s'⟩ := by
  induction cs generalizing σ s with
  | nil =>
      cases hrun
      exact .refl
  | cons p cs ih =>
      obtain ⟨τ, s₁, hfirst, hrest⟩ := of_bind_ok hrun
      obtain ⟨hname, hc⟩ := hcs p List.mem_cons_self
      have hnext : Next dir Allowed ⟨earlier, σ, s⟩ ⟨earlier, σ.setSession p.1 τ, s₁⟩ :=
        .call hname hc hfirst
      exact .head hnext (ih (fun q hq => hcs q (List.mem_cons_of_mem _ hq)) hrest)

/-- And they are turns that one index takes. -/
theorem takes_askAll {name : String} {cs : List Call} {answers : List Answer}
    (hrun : Sessions.askAll name cs σ s = .ok (answers, σ') s') :
    Takes dir name (cs.map .call) answers ⟨earlier, σ, s⟩ ⟨earlier, σ', s'⟩ := by
  induction cs generalizing σ s answers with
  | nil =>
      cases hrun
      exact .done
  | cons c cs ih =>
      obtain ⟨τ, s₁, hfirst, hrest⟩ := of_bind_ok hrun
      obtain ⟨⟨rest, σ₁⟩, s₂, hrest, hlast⟩ := of_bind_ok hrest
      cases hlast
      exact .next (.call hfirst) (ih hrest)

end Moment

-- ============================================================== the others

namespace Index

/-- A run on one index of a database leaves the others as they were. Before it,
anything may have been done on any indexes, as long as nobody else wrote under
their keys; in it, the first index is asked for tokens, documents are filed
there and taken out, in transactions or not, marks are swept, and the database
is closed or dropped and opened again. Then the store holds the same under all
keys that do not begin with the lead of that index. Whatever is asked of an
index of another name is answered, and has the same answer. And whatever turns
that index takes then, they answer the same tokens as without the run. -/
theorem neighbours_untouched {ν : Type} {dir : Path} {M₀ M M' : Moment ν} {first second : String}
    (hfresh : M₀.Fresh dir) (hbefore : Relation.ReflTransGen (Moment.Next dir Call.Civil) M₀ M)
    (hfirst : isValidName first = true) (hsecond : isValidName second = true)
    (hne : first ≠ second)
    (hrun : Relation.ReflTransGen (Moment.Next dir (Call.Only first)) M.setAside M')
    (hroom : M'.written < UInt64.size) :
    (∃ m m', M.store.engine.view.Reads M.store.toMemory m ∧
      M'.store.engine.view.Reads M'.store.toMemory m' ∧
      ∀ k, ¬(ofName first).lead <+: k → m'.find? k = m.find? k) ∧
    (ofName second).AnswersAlike M.store.toMemory (.pinned M.store.engine.view)
      M'.store.toMemory (.pinned M'.store.engine.view) ∧
    ∀ turns answers answers' N N', (∀ c, .call c ∈ turns → c.Civil second) →
      Moment.Takes dir second turns answers (M.alongside M') N →
      Moment.Takes dir second turns answers' (M'.alongside M) N' →
      N.written < UInt64.size → N'.written < UInt64.size → answers' = answers ∧
        ∀ i term raw given N₁, N.Turns dir second (.call (.token i term raw)) given N₁ →
          N₁.written < UInt64.size → ∀ e s',
            (Call.token i term raw).run second (N'.sessions.session second) N'.store
              = .error e s' → UInt64.size ≤ N'.earlier + s'.written := by
  obtain ⟨ops, ops', hspared⟩ := hfresh.spared hbefore hrun hroom
  have hapart (k : Bytes) (hk : (ofName second).lead <+: k) : ¬(ofName first).lead <+: k :=
    fun hk' => hne (name_of_lead hfirst hsecond hk' hk)
  refine ⟨⟨contents ops, contents ops', hspared.measured.reads, hspared.measured'.reads,
    fun k => hspared.same⟩, (hspared.counterparts hapart).answersAlike, ?_⟩
  intro turns answers answers' N N' hcivil hturns hturns' hroom₁ hroom₂
  have hown (c : Call) (hc : .call c ∈ turns) : c.Own (ofName second) := (hcivil c hc).own_self
  obtain ⟨hanswers, hlast⟩ := hturns.abreast hturns' (hspared.abreast hsecond hapart)
    (hspared.ready.inCommon M'.sessions) (hspared.ready'.inCommon M.sessions) hsecond hown
    hroom₁ hroom₂
  exact ⟨hanswers, fun i term raw given N₁ hasked hroom₃ e s' hfails =>
    hlast.has_token hasked hroom₃ hfails⟩

/-- What was done before: on two indexes, of which one name begins the other,
a document was filed. -/
def earlierCalls : List (String × Call) :=
  [("a", .openIndex 0 ⟨1, 1⟩ 1), ("ab", .openIndex 0 ⟨1, 1⟩ 1),
    ("a", .update 0 none "d" "1" [⟨"x", "x", 0⟩]), ("ab", .update 0 none "e" "1" [⟨"x", "x", 0⟩])]

/-- A run on the first of them. -/
def laterCalls : List (String × Call) :=
  [("a", .token 0 "y" "y"), ("a", .update 0 none "d" "2" [⟨"y", "y", 0⟩, ⟨"z", "z", 0⟩]),
    ("a", .sweep 0), ("a", .remove 0 none "d")]

/-- Tokens that the second is asked for then. -/
def lastCalls : List Call :=
  [.token 0 "x" "x", .token 0 "z" "z"]

/-- So it is with those calls: the tokens are the first one and the next. -/
theorem neighbours_untouched_laterCalls :
    ∃ (e : Engine) (v : Volume) (σ σ' τ τ' : Sessions Unit) (s s' t t' : Store)
      (m m' : KeyMap Bytes) (answers : List Answer),
      openAt Settings.standard ["db"] 0 Volume.empty = .ok e v ∧
        Sessions.runAll earlierCalls .blank (opened v e) = .ok σ s ∧
        Sessions.runAll laterCalls σ.setAside s = .ok σ' s' ∧
        s.engine.view.Reads s.toMemory m ∧ s'.engine.view.Reads s'.toMemory m' ∧
        (∀ k, ¬(ofName "a").lead <+: k → m'.find? k = m.find? k) ∧
        (ofName "ab").AnswersAlike s.toMemory (.pinned s.engine.view) s'.toMemory
          (.pinned s'.engine.view) ∧
        Sessions.askAll "ab" lastCalls (σ.inCommon σ') s = .ok (answers, τ) t ∧
        Sessions.askAll "ab" lastCalls (σ'.inCommon σ) s' = .ok (answers, τ') t' ∧
        answers.map Answer.token = [1, 2] := by
  have hruns : ends (openAt Settings.standard ["db"] 0) Volume.empty (fun e v =>
      ends (Sessions.runAll earlierCalls (.blank : Sessions Unit)) (opened v e) fun σ s =>
        ends (Sessions.runAll laterCalls σ.setAside) s fun σ' s' =>
          decide (0 + s'.written < UInt64.size) &&
          ends (Sessions.askAll "ab" lastCalls (σ.inCommon σ')) s (fun found t =>
            decide (0 + t.written < UInt64.size) &&
            decide (found.1.map Answer.token = [1, 2])) &&
          ends (Sessions.askAll "ab" lastCalls (σ'.inCommon σ)) s' fun _ t' =>
            decide (0 + t'.written < UInt64.size)) = true := by
    decide +kernel
  obtain ⟨e, v, hopen, hruns⟩ := of_ends hruns
  obtain ⟨σ, s, hbefore, hruns⟩ := of_ends hruns
  obtain ⟨σ', s', hrun, hruns⟩ := of_ends hruns
  simp only [Bool.and_eq_true, decide_eq_true_eq] at hruns
  obtain ⟨⟨hroom, hwithout⟩, hwith⟩ := hruns
  obtain ⟨⟨answers, τ⟩, t, hask, hwithout⟩ := of_ends hwithout
  obtain ⟨⟨answers', τ'⟩, t', hask', hroom'⟩ := of_ends hwith
  simp only [Bool.and_eq_true, decide_eq_true_eq] at hwithout
  obtain ⟨hroom₁, htokens⟩ := hwithout
  have hearlier : ∀ p ∈ earlierCalls, isValidName p.1 = true ∧ p.2.Civil p.1 := by decide
  have hlater : ∀ p ∈ laterCalls, isValidName p.1 = true ∧ p.1 = "a" ∧ p.2.Indexes "a" := by decide
  have hname : isValidName "ab" = true := by decide
  obtain ⟨⟨m, m', hreads, hreads', hsame⟩, hanswers, hturns⟩ :=
    neighbours_untouched ⟨_, _, _, _, _, vacant_empty ["db"], hopen, rfl⟩
      (Moment.reaches_runAll hearlier hbefore) (by decide) hname (by decide)
      (Moment.reaches_runAll hlater hrun) hroom
  have hlast : ∀ c ∈ lastCalls, c.Civil "ab" := by decide
  have hcivil (c : Call) (hc : Turn.call c ∈ lastCalls.map .call) : c.Civil "ab" := by
    obtain ⟨c', hc', heq⟩ := List.mem_map.mp hc
    cases heq
    exact hlast c hc'
  obtain ⟨rfl, -⟩ := hturns _ _ _ _ _ hcivil (Moment.takes_askAll hask)
    (Moment.takes_askAll hask') hroom₁ (of_decide_eq_true hroom')
  exact ⟨e, v, σ, σ', τ, τ', s, s', t, t', m, m', _, hopen, hbefore, hrun, hreads, hreads', hsame,
    hanswers, hask, hask', htokens⟩

end Index

end OrderedStore
