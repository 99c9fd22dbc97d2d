import Npamp.Lib.Run

/-!
# Programs in dialogue with an adversarial network

A straight-line program on a connection is a tree, and `Meets` a program logic for such trees. A
network is any number of runs that an adversary starts and answers in any order.
-/

/-- A program that fails with `ε` or returns `α`, reads `ι`, writes `ο` and notes `ω`. -/
inductive Dialogue (ε ι ο ω α : Type) where
  | done (result : Except ε α)
  | read (k : Except ε ι → Dialogue ε ι ο ω α)
  | write (out : ο) (k : Except ε Unit → Dialogue ε ι ο ω α)
  | note (e : ω) (k : Dialogue ε ι ο ω α)

namespace Dialogue

open List Option

variable {ε ι ο ω α β : Type}

def andThen (p : Dialogue ε ι ο ω α) (h : Except ε α → Dialogue ε ι ο ω β) : Dialogue ε ι ο ω β :=
  match p with
  | .done r => h r
  | .read k => .read fun x => (k x).andThen h
  | .write out k => .write out fun x => (k x).andThen h
  | .note e k => .note e (k.andThen h)

def orFail (f : α → Dialogue ε ι ο ω β) : Except ε α → Dialogue ε ι ο ω β
  | .ok a => f a
  | .error e => .done (.error e)

instance : Monad (Dialogue ε ι ο ω) where
  pure a := .done (.ok a)
  bind p f := p.andThen (orFail f)

def ofExcept (x : Except ε α) : Dialogue ε ι ο ω α := .done x

def fail (e : ε) : Dialogue ε ι ο ω α := .done (.error e)

def receive : Dialogue ε ι ο ω ι := .read .done

def send (out : ο) : Dialogue ε ι ο ω Unit := .write out .done

def observe (e : ω) : Dialogue ε ι ο ω Unit := .note e (.done (.ok ()))

def wrapError (f : ε → ε) (p : Dialogue ε ι ο ω α) : Dialogue ε ι ο ω α :=
  p.andThen fun r => .done (r.mapError f)

def attempt (p : Dialogue ε ι ο ω α) : Dialogue ε ι ο ω (Except ε α) :=
  p.andThen fun r => .done (.ok r)

/-- Started with the events `log`, the program meets `W` on its events whenever it waits for the
network, and `R` on its events and its result when it ends. -/
def Meets (W : List ω → Prop) (R : List ω → Except ε α → Prop) : List ω → Dialogue ε ι ο ω α → Prop
  | log, .done r => R log r
  | log, .read k => W log ∧ ∀ x, Meets W R log (k x)
  | log, .write _ k => W log ∧ ∀ x, Meets W R log (k x)
  | log, .note e k => Meets W R (log ++ [e]) k

section Logic

variable {W : List ω → Prop} {R : List ω → Except ε β → Prop} {log : List ω}

theorem meets_done {r : Except ε β} :
    Meets W R log (.done r : Dialogue ε ι ο ω β) ↔ R log r := Iff.rfl

theorem meets_read {k : Except ε ι → Dialogue ε ι ο ω β} :
    Meets W R log (.read k) ↔ W log ∧ ∀ x, Meets W R log (k x) := Iff.rfl

theorem meets_write {out : ο} {k : Except ε Unit → Dialogue ε ι ο ω β} :
    Meets W R log (.write out k) ↔ W log ∧ ∀ x, Meets W R log (k x) := Iff.rfl

theorem meets_note {e : ω} {k : Dialogue ε ι ο ω β} :
    Meets W R log (.note e k) ↔ Meets W R (log ++ [e]) k := Iff.rfl

-- from here on a program is taken apart by the rules only, never by running it
attribute [irreducible] Meets

variable {p : Dialogue ε ι ο ω α} {f : α → Dialogue ε ι ο ω β}

theorem meets_andThen {h : Except ε α → Dialogue ε ι ο ω β}
    (hp : Meets W (fun log r => Meets W R log (h r)) log p) : Meets W R log (p.andThen h) := by
  induction p generalizing log with
  | done r => exact meets_done.mp hp
  | read k ih =>
    obtain ⟨hlog, hk⟩ := meets_read.mp hp
    exact meets_read.mpr ⟨hlog, fun x => ih x (hk x)⟩
  | write out k ih =>
    obtain ⟨hlog, hk⟩ := meets_write.mp hp
    exact meets_write.mpr ⟨hlog, fun x => ih x (hk x)⟩
  | note e k ih => exact meets_note.mpr (ih (meets_note.mp hp))

theorem Meets.mono {R R' : List ω → Except ε α → Prop} (hp : Meets W R log p)
    (h : ∀ log r, R log r → R' log r) : Meets W R' log p := by
  induction p generalizing log with
  | done r => exact meets_done.mpr (h log r (meets_done.mp hp))
  | read k ih =>
    obtain ⟨hlog, hk⟩ := meets_read.mp hp
    exact meets_read.mpr ⟨hlog, fun x => ih x (hk x)⟩
  | write out k ih =>
    obtain ⟨hlog, hk⟩ := meets_write.mp hp
    exact meets_write.mpr ⟨hlog, fun x => ih x (hk x)⟩
  | note e k ih => exact meets_note.mpr (ih (meets_note.mp hp))

theorem meets_pure {a : β} (h : R log (.ok a)) :
    Meets W R log (pure a : Dialogue ε ι ο ω β) := meets_done.mpr h

theorem meets_orFail {r : Except ε α} (hok : ∀ a, r = .ok a → Meets W R log (f a))
    (herror : ∀ e, r = .error e → R log (.error e)) : Meets W R log (orFail f r) := by
  cases r with
  | error e => exact meets_done.mpr (herror e rfl)
  | ok a => exact hok a rfl

theorem Meets.bind {Q : List ω → Except ε α → Prop} (hp : Meets W Q log p)
    (hok : ∀ log a, Q log (.ok a) → Meets W R log (f a))
    (herror : ∀ log e, Q log (.error e) → R log (.error e)) : Meets W R log (p >>= f) := by
  apply meets_andThen
  apply hp.mono
  intro log r hr
  exact meets_orFail (fun a ha => hok log a (ha ▸ hr)) fun e he => herror log e (he ▸ hr)

theorem meets_ofExcept_bind {x : Except ε α} (hok : ∀ a, x = .ok a → Meets W R log (f a))
    (herror : ∀ e, R log (.error e)) : Meets W R log (ofExcept x >>= f) :=
  meets_orFail hok fun e _ => herror e

theorem meets_ok_bind {a : α} (h : Meets W R log (f a)) :
    Meets W R log (ofExcept (.ok a) >>= f) := h

theorem meets_observe_bind {e : ω} {f : Unit → Dialogue ε ι ο ω β}
    (h : Meets W R (log ++ [e]) (f ())) : Meets W R log (observe e >>= f) := meets_note.mpr h

structure Quiet (p : Dialogue ε ι ο ω α) : Prop where
  meets (W : List ω → Prop) (log : List ω) (hlog : W log) :
    Meets W (fun log' _ => log' = log) log p

theorem quiet_done (r : Except ε α) : Quiet (.done r : Dialogue ε ι ο ω α) :=
  ⟨fun _ _ _ => meets_done.mpr rfl⟩

theorem quiet_receive : Quiet (receive : Dialogue ε ι ο ω ι) :=
  ⟨fun _ _ hlog => meets_read.mpr ⟨hlog, fun _ => meets_done.mpr rfl⟩⟩

theorem quiet_send (out : ο) : Quiet (send out : Dialogue ε ι ο ω Unit) :=
  ⟨fun _ _ hlog => meets_write.mpr ⟨hlog, fun _ => meets_done.mpr rfl⟩⟩

theorem Quiet.andThen {h : Except ε α → Dialogue ε ι ο ω β} (hp : Quiet p) (hh : ∀ r, Quiet (h r)) :
    Quiet (p.andThen h) := by
  constructor
  intro W log hlog
  apply meets_andThen
  apply (hp.meets W log hlog).mono
  rintro log' r rfl
  exact (hh r).meets W log' hlog

theorem Quiet.wrapError (hp : Quiet p) (f : ε → ε) : Quiet (p.wrapError f) :=
  hp.andThen fun _ => quiet_done _

theorem Quiet.bind (hp : Quiet p) (hf : ∀ a, Quiet (f a)) : Quiet (p >>= f) := by
  apply hp.andThen
  intro r
  cases r with
  | error e => exact quiet_done _
  | ok a => exact hf a

theorem Quiet.meets_bind (hp : Quiet p) (hlog : W log) (hok : ∀ a, Meets W R log (f a))
    (herror : ∀ e, R log (.error e)) : Meets W R log (p >>= f) := by
  apply (hp.meets W log hlog).bind
  · rintro log' a rfl
    exact hok a
  · rintro log' e rfl
    exact herror e

theorem Quiet.meets_wrapError_bind {g : ε → ε} (hp : Quiet p) (hlog : W log)
    (hok : ∀ a, Meets W R log (f a)) (herror : ∀ e, R log (.error (g e))) :
    Meets W R log (p.wrapError g >>= f) := by
  apply meets_andThen
  apply meets_andThen
  apply (hp.meets W log hlog).mono
  rintro log' r rfl
  refine meets_done.mpr ?_
  cases r with
  | error e => exact meets_done.mpr (herror e)
  | ok a => exact hok a

end Logic

def Returns (Q : α → Prop) (p : Dialogue ε ι ο ω α) : Prop :=
  ∀ log, Meets (fun _ => True) (fun _ r => ∀ a, r = .ok a → Q a) log p

section Returning

variable {Q : α → Prop} {Q' : β → Prop} {p : Dialogue ε ι ο ω α} {f : α → Dialogue ε ι ο ω β}

theorem returns_done {r : Except ε α} (h : ∀ a, r = .ok a → Q a) :
    Returns Q (.done r : Dialogue ε ι ο ω α) :=
  fun _ => meets_done.mpr h

theorem returns_pure {a : α} (h : Q a) : Returns Q (pure a : Dialogue ε ι ο ω α) :=
  returns_done fun _ ha => Except.ok.inj ha ▸ h

theorem returns_fail (e : ε) : Returns Q (fail e : Dialogue ε ι ο ω α) := returns_done nofun

theorem Returns.bind (hp : Returns Q p) (hf : ∀ a, Q a → Returns Q' (f a)) : Returns Q' (p >>= f) :=
  fun log => (hp log).bind (fun log a ha => hf a (ha a rfl) log) fun _ _ _ => nofun

theorem returns_true (p : Dialogue ε ι ο ω α) : Returns (fun _ => True) p := by
  intro log
  induction p generalizing log with
  | done r => exact meets_done.mpr fun _ _ => trivial
  | read k ih => exact meets_read.mpr ⟨trivial, fun x => ih x log⟩
  | write out k ih => exact meets_write.mpr ⟨trivial, fun x => ih x log⟩
  | note e k ih => exact meets_note.mpr (ih _)

theorem returns_bind (hf : ∀ a, Returns Q' (f a)) : Returns Q' (p >>= f) :=
  (returns_true p).bind fun a _ => hf a

theorem returns_ofExcept_bind {x : Except ε α} (hf : ∀ a, x = .ok a → Returns Q' (f a)) :
    Returns Q' (ofExcept x >>= f) :=
  (returns_done (Q := fun a => x = .ok a) fun _ h => h).bind hf

theorem Returns.attempt (hp : Returns Q p) : Returns (fun r => ∀ a, r = .ok a → Q a) p.attempt := by
  intro log
  apply meets_andThen
  apply (hp log).mono
  intro log r hr
  exact returns_pure (fun a ha => hr a ha) log

end Returning

inductive Paused (ε ι ο ω α : Type) where
  | done (result : Except ε α)
  | reading (k : Except ε ι → Dialogue ε ι ο ω α)
  | writing (out : ο) (k : Except ε Unit → Dialogue ε ι ο ω α)

inductive Answer (ε ι : Type) where
  | read (x : Except ε ι)
  | wrote (x : Except ε Unit)

def settle : Dialogue ε ι ο ω α → List ω × Paused ε ι ο ω α
  | .done r => ([], .done r)
  | .read k => ([], .reading k)
  | .write out k => ([], .writing out k)
  | .note e k => (e :: k.settle.1, k.settle.2)

namespace Paused

def resume : Paused ε ι ο ω α → Answer ε ι → Option (List ω × Paused ε ι ο ω α)
  | .reading k, .read x => some (k x).settle
  | .writing _ k, .wrote x => some (k x).settle
  | _, _ => none

def outcome : Paused ε ι ο ω α → Option (Except ε α)
  | .done r => some r
  | _ => none

def pending : Paused ε ι ο ω α → Option ο
  | .writing out _ => some out
  | _ => none

def Holds (W : List ω → Prop) (R : List ω → Except ε α → Prop) (log : List ω) :
    Paused ε ι ο ω α → Prop
  | .done r => R log r
  | .reading k => W log ∧ ∀ x, Meets W R log (k x)
  | .writing _ k => W log ∧ ∀ x, Meets W R log (k x)

end Paused

section Pausing

variable {W : List ω → Prop} {R : List ω → Except ε α → Prop} {log es : List ω}

theorem Meets.settle {p : Dialogue ε ι ο ω α} (hp : Meets W R log p) :
    p.settle.2.Holds W R (log ++ p.settle.1) := by
  induction p generalizing log with
  | done r =>
    change R (log ++ []) r
    rw [append_nil]
    exact meets_done.mp hp
  | read k _ =>
    change Paused.Holds W R (log ++ []) (.reading k)
    rw [append_nil]
    exact meets_read.mp hp
  | write out k _ =>
    change Paused.Holds W R (log ++ []) (.writing out k)
    rw [append_nil]
    exact meets_write.mp hp
  | note e k ih =>
    have h := ih (meets_note.mp hp)
    rwa [append_assoc] at h

theorem Paused.Holds.resume {q q' : Paused ε ι ο ω α} {a : Answer ε ι} (hq : q.Holds W R log)
    (hresume : q.resume a = some (es, q')) : q'.Holds W R (log ++ es) := by
  cases q with
  | done r => cases hresume
  | reading k =>
    cases a with
    | wrote x => cases hresume
    | read x =>
      have h := (hq.2 x).settle
      rwa [some.inj hresume] at h
  | writing out k =>
    cases a with
    | read x => cases hresume
    | wrote x =>
      have h := (hq.2 x).settle
      rwa [some.inj hresume] at h

theorem Paused.Holds.outcome_or {q : Paused ε ι ο ω α} (hq : q.Holds W R log) :
    q.outcome = none ∧ W log ∨ ∃ r, q.outcome = some r ∧ R log r := by
  cases q with
  | done r => exact Or.inr ⟨r, rfl, hq⟩
  | _ => exact Or.inl ⟨rfl, hq.1⟩

theorem Paused.Holds.of_outcome {q : Paused ε ι ο ω α} {r : Except ε α} (hq : q.Holds W R log)
    (houtcome : q.outcome = some r) : R log r := by
  cases q with
  | done r' =>
    cases houtcome
    exact hq
  | _ => cases houtcome

end Pausing

structure Session (κ ε ι ο ω α : Type) where
  party : κ
  log : List ω
  rest : Paused ε ι ο ω α

/-- What the adversary does: starts a run, or answers what a run waits for. -/
inductive Move (κ ε ι : Type) where
  | start (party : κ)
  | answer (i : Nat) (a : Answer ε ι)

variable {κ : Type}

def Session.new (program : κ → Dialogue ε ι ο ω α) (party : κ) : Session κ ε ι ο ω α where
  party := party
  log := (program party).settle.1
  rest := (program party).settle.2

def Session.answer (s : Session κ ε ι ο ω α) (a : Answer ε ι) : Option (Session κ ε ι ο ω α) :=
  (s.rest.resume a).map fun next => { s with log := s.log ++ next.1, rest := next.2 }

def Session.outcome (s : Session κ ε ι ο ω α) : Option (Except ε α) := s.rest.outcome

def step (program : κ → Dialogue ε ι ο ω α) (w : List (Session κ ε ι ο ω α)) :
    Move κ ε ι → Option (List (Session κ ε ι ο ω α))
  | .start party => some (w ++ [Session.new program party])
  | .answer i a => (w[i]?).bind fun s => (s.answer a).map fun s' => w.set i s'

section Network

variable {program : κ → Dialogue ε ι ο ω α} {W : κ → List ω → Prop}
  {R : κ → List ω → Except ε α → Prop} {w : List (Session κ ε ι ο ω α)}
  {ok : List (Session κ ε ι ο ω α) → Move κ ε ι → Prop}

def Session.Holds (W : κ → List ω → Prop) (R : κ → List ω → Except ε α → Prop)
    (s : Session κ ε ι ο ω α) : Prop := s.rest.Holds (W s.party) (R s.party) s.log

theorem Session.Holds.answer {s s' : Session κ ε ι ο ω α} {a : Answer ε ι} (hs : s.Holds W R)
    (hanswer : s.answer a = some s') : s'.Holds W R := by
  obtain ⟨⟨es, q⟩, hresume, rfl⟩ := map_eq_some_iff.mp hanswer
  exact Paused.Holds.resume hs hresume

theorem holds_step (hprogram : ∀ party, Meets (W party) (R party) [] (program party))
    {w' : List (Session κ ε ι ο ω α)} {move : Move κ ε ι} (hw : ∀ s ∈ w, s.Holds W R)
    (hstep : step program w move = some w') : ∀ s ∈ w', s.Holds W R := by
  intro s hs
  cases move with
  | start party =>
    cases hstep
    rcases mem_append.mp hs with hs | hs
    · exact hw s hs
    · cases mem_singleton.mp hs
      exact (hprogram party).settle
  | answer i a =>
    obtain ⟨t, ht, hstep⟩ := bind_eq_some_iff.mp hstep
    obtain ⟨t', ht', rfl⟩ := map_eq_some_iff.mp hstep
    rcases mem_or_eq_of_mem_set hs with hs | rfl
    · exact hw s hs
    · exact (hw t (mem_of_getElem? ht)).answer ht'

/-- **The program logic carries over to networks.** -/
theorem holds_of_reaches (hprogram : ∀ party, Meets (W party) (R party) [] (program party))
    (hreach : Run.Reaches (step program) ok [] w) : ∀ s ∈ w, s.Holds W R :=
  hreach.invariant (fun _ hs => absurd hs not_mem_nil)
    fun _ _ _ hw _ hstep => holds_step hprogram hw hstep

theorem party_of_reaches {P : κ → Prop} (hok : ∀ w party, ok w (.start party) → P party)
    (hreach : Run.Reaches (step program) ok [] w) : ∀ s ∈ w, P s.party := by
  induction hreach with
  | start => exact fun _ hs => absurd hs not_mem_nil
  | @next w w' move _ hmove hstep ih =>
    intro s hs
    cases move with
    | start party =>
      cases hstep
      rcases mem_append.mp hs with hs | hs
      · exact ih s hs
      · cases mem_singleton.mp hs
        exact hok w party hmove
    | answer i a =>
      obtain ⟨t, ht, hstep⟩ := bind_eq_some_iff.mp hstep
      obtain ⟨t', ht', rfl⟩ := map_eq_some_iff.mp hstep
      rcases mem_or_eq_of_mem_set hs with hs | rfl
      · exact ih s hs
      · obtain ⟨next, -, rfl⟩ := map_eq_some_iff.mp ht'
        exact ih t (mem_of_getElem? ht)

/-- **What a program returns, it returns in every network.** -/
theorem returns_of_reaches {P : κ → Prop} {Q : κ → α → Prop}
    (hprogram : ∀ party, P party → Returns (Q party) (program party))
    (hok : ∀ w party, ok w (.start party) → P party) (hreach : Run.Reaches (step program) ok [] w) :
    ∀ s ∈ w, ∀ a, s.outcome = some (.ok a) → Q s.party a := by
  have hmeets : ∀ party, Meets (fun _ => True)
      (fun _ r => P party → ∀ a, r = .ok a → Q party a) [] (program party) := by
    intro party
    by_cases hparty : P party
    · exact (hprogram party hparty []).mono fun _ _ hr _ => hr
    · exact (returns_true (program party) []).mono fun _ _ _ h => absurd h hparty
  intro s hs a houtcome
  have hholds := holds_of_reaches hmeets hreach s hs
  exact Paused.Holds.of_outcome hholds houtcome (party_of_reaches hok hreach s hs) a rfl

end Network

section Relay

variable {program : κ → Dialogue ε ι ι ω α} {w w' : List (Session κ ε ι ι ω α)}

def pendingAt (w : List (Session κ ε ι ι ω α)) (i : Nat) : Option ι :=
  (w[i]?).bind fun s => s.rest.pending

def relay (program : κ → Dialogue ε ι ι ω α) :
    List (Session κ ε ι ι ω α) → List (Nat × Nat) → Option (List (Session κ ε ι ι ω α))
  | w, [] => some w
  | w, (i, j) :: rest =>
    (pendingAt w i).bind fun out =>
      (Run.exec (step program) (fun _ _ => true) w
        [.answer i (.wrote (.ok ())), .answer j (.read (.ok out))]).bind fun w' =>
          relay program w' rest

theorem reaches_relay {pairs : List (Nat × Nat)} (h : relay program w pairs = some w') :
    Run.Reaches (step program) (fun _ _ => True) w w' := by
  induction pairs generalizing w with
  | nil =>
    cases h
    exact .start
  | cons pair rest ih =>
    obtain ⟨out, -, h⟩ := bind_eq_some_iff.mp h
    obtain ⟨middle, hmiddle, h⟩ := bind_eq_some_iff.mp h
    have hfirst : Run.Reaches (step program) (fun _ _ => True) w middle :=
      (Run.Reaches.of_exec hmiddle).mono fun _ _ _ => trivial
    exact hfirst.trans (ih h)

end Relay

end Dialogue
