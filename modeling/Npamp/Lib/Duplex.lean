import Npamp.Lib.Dialogue
import Npamp.Lib.Confluence

/-!
# Two programs joined by a pair of streams

What one program writes arrives at the other in order. Every schedule leads to the same end, so it
is enough to find one that gets there, which is what `Joint` does.
-/

namespace Dialogue

open List Option

variable {ε ι ο ω α γ : Type}

inductive Exchange (ι ο : Type) where
  | got (x : ι)
  | put (out : ο)

/-- The program makes the exchanges of the script, none of which fails, and ends with `r`. -/
inductive Follows : Dialogue ε ι ο ω α → List (Exchange ι ο) → Except ε α → Prop
  | done (r : Except ε α) : Follows (.done r) [] r
  | read {k : Except ε ι → Dialogue ε ι ο ω α} {x : ι} {script : List (Exchange ι ο)}
      {r : Except ε α} (rest : Follows (k (.ok x)) script r) : Follows (.read k) (.got x :: script) r
  | write {out : ο} {k : Except ε Unit → Dialogue ε ι ο ω α} {script : List (Exchange ι ο)}
      {r : Except ε α} (rest : Follows (k (.ok ())) script r) :
      Follows (.write out k) (.put out :: script) r
  | note {e : ω} {k : Dialogue ε ι ο ω α} {script : List (Exchange ι ο)} {r : Except ε α}
      (rest : Follows k script r) : Follows (.note e k) script r

section Rules

variable {p : Dialogue ε ι ο ω α} {f : α → Dialogue ε ι ο ω γ} {r : Except ε γ} {a : α}
  {script script' : List (Exchange ι ο)}

theorem Follows.andThen {x : Except ε α} {h : Except ε α → Dialogue ε ι ο ω γ}
    (hp : Follows p script x) (hh : Follows (h x) script' r) :
    Follows (p.andThen h) (script ++ script') r := by
  induction hp with
  | done => exact hh
  | read _ ih => exact .read (ih hh)
  | write _ ih => exact .write (ih hh)
  | note _ ih => exact .note (ih hh)

theorem Follows.bind (hp : Follows p script (.ok a)) (hf : Follows (f a) script' r) :
    Follows (p >>= f) (script ++ script') r :=
  hp.andThen (h := orFail f) hf

theorem Follows.cons {e : Exchange ι ο} (hp : Follows p [e] (.ok a))
    (hf : Follows (f a) script r) : Follows (p >>= f) (e :: script) r :=
  hp.bind hf

theorem Follows.wrapError (hp : Follows p script (.ok a)) (g : ε → ε) :
    Follows (p.wrapError g) script (.ok a) := by
  have h : Follows (p.wrapError g) (script ++ []) (.ok a) := hp.andThen (.done _)
  rwa [append_nil] at h

theorem Follows.map (hp : Follows p script (.ok a)) (g : α → γ) :
    Follows (p >>= fun a => pure (g a)) script (.ok (g a)) := by
  have h : Follows (p >>= fun a => pure (g a)) (script ++ []) (.ok (g a)) := hp.bind (.done _)
  rwa [append_nil] at h

theorem Follows.attempt {x : Except ε α} (hp : Follows p script x) :
    Follows p.attempt script (.ok x) := by
  have h : Follows p.attempt (script ++ []) (.ok x) := hp.andThen (.done _)
  rwa [append_nil] at h

theorem follows_pure (a : α) : Follows (pure a : Dialogue ε ι ο ω α) [] (.ok a) := .done _

theorem follows_receive (x : ι) : Follows (receive : Dialogue ε ι ο ω ι) [.got x] (.ok x) :=
  .read (.done _)

theorem follows_send (out : ο) : Follows (send out : Dialogue ε ι ο ω Unit) [.put out] (.ok ()) :=
  .write (.done _)

theorem follows_ofExcept_bind {x : Except ε α} (hx : x = .ok a) (hf : Follows (f a) script r) :
    Follows (ofExcept x >>= f) script r := by
  subst hx
  exact hf

theorem follows_observe_bind {e : ω} {f : Unit → Dialogue ε ι ο ω γ}
    (hf : Follows (f ()) script r) : Follows (observe e >>= f) script r := .note hf

section Network

variable {κ : Type} {program : κ → Dialogue ε ι ο ω α} {party : κ}
  {ok : List (Session κ ε ι ο ω α) → Move κ ε ι → Prop} {x : Except ε α}

theorem Follows.reaches_done (hp : Follows p script x) (hanswer : ∀ w i a, ok w (.answer i a))
    (log : List ω) :
    ∃ log', Run.Reaches (step program) ok [⟨party, log, p.settle.2⟩] [⟨party, log', .done x⟩] := by
  induction hp generalizing log with
  | done r => exact ⟨log, .start⟩
  | @read k a script r rest ih =>
    obtain ⟨log', hreach⟩ := ih (log ++ (k (.ok a)).settle.1)
    exact ⟨log', .trans (.next .start (hanswer _ 0 (.read (.ok a))) rfl) hreach⟩
  | @write out k script r rest ih =>
    obtain ⟨log', hreach⟩ := ih (log ++ (k (.ok ())).settle.1)
    exact ⟨log', .trans (.next .start (hanswer _ 0 (.wrote (.ok ()))) rfl) hreach⟩
  | note _ ih => exact ih log

theorem Follows.reaches (hp : Follows (program party) script x) (hstart : ok [] (.start party))
    (hanswer : ∀ w i a, ok w (.answer i a)) :
    ∃ s, Run.Reaches (step program) ok [] [s] ∧ s.party = party ∧ s.outcome = some x := by
  obtain ⟨log, hreach⟩ := hp.reaches_done hanswer (program party).settle.1
  exact ⟨⟨party, log, .done x⟩, .trans (.next .start hstart rfl) hreach, rfl, rfl⟩

end Network

end Rules

variable {β : Type}

/-- How an end takes items off what has arrived: what it takes does not depend on what comes
later. -/
structure Port (β ε ι : Type) where
  next : List β → Option (Except ε ι × List β)
  next_append {s rest : List β} {x : Except ε ι} (t : List β) (h : next s = some (x, rest)) :
    next (s ++ t) = some (x, rest ++ t)

def Port.Takes {ε : Type} (port : Port β ε (List β)) (x : List β) : Prop :=
  ∀ rest, port.next (x ++ rest) = some (.ok x, rest)

/-- A program, the symbols it wrote that are still under way, and those that arrived for it. -/
structure Half (β ε ι ω α : Type) where
  program : Dialogue ε ι (List β) ω α
  outbound : List β
  inbound : List β

namespace Half

variable (port : Port β ε ι)

def act (h : Half β ε ι ω α) : Option (Half β ε ι ω α) :=
  match h.program with
  | .done _ => none
  | .read k => (port.next h.inbound).map fun p => { h with program := k p.1, inbound := p.2 }
  | .write out k => some { h with program := k (.ok ()), outbound := h.outbound ++ out }
  | .note _ k => some { h with program := k }

def push (h : Half β ε ι ω α) (b : β) : Half β ε ι ω α := { h with inbound := h.inbound ++ [b] }

def pop (h : Half β ε ι ω α) : Option (β × Half β ε ι ω α) :=
  match h.outbound with
  | [] => none
  | b :: rest => some (b, { h with outbound := rest })

variable {port} {h h' h₀ : Half β ε ι ω α}

theorem act_push (hact : h.act port = some h') (b : β) :
    (h.push b).act port = some (h'.push b) := by
  obtain ⟨program, outbound, inbound⟩ := h
  cases program with
  | done r => cases hact
  | read k =>
    obtain ⟨⟨x, rest⟩, hnext, rfl⟩ := map_eq_some_iff.mp hact
    exact map_eq_some_iff.mpr ⟨_, port.next_append [b] hnext, rfl⟩
  | _ =>
    cases hact
    rfl

theorem act_pop {b : β} (hact : h.act port = some h') (hpop : h.pop = some (b, h₀)) :
    ∃ h₁, h'.pop = some (b, h₁) ∧ h₀.act port = some h₁ := by
  obtain ⟨program, outbound, inbound⟩ := h
  cases outbound with
  | nil => cases hpop
  | cons c rest =>
    obtain ⟨rfl, rfl⟩ := Prod.mk.inj (some.inj hpop)
    cases program with
    | done r => cases hact
    | read k =>
      obtain ⟨⟨x, inbound'⟩, hnext, rfl⟩ := map_eq_some_iff.mp hact
      exact ⟨_, rfl, map_eq_some_iff.mpr ⟨_, hnext, rfl⟩⟩
    | _ =>
      cases hact
      exact ⟨_, rfl, rfl⟩

theorem pop_push {b : β} (c : β) (hpop : h.pop = some (b, h₀)) :
    (h.push c).pop = some (b, h₀.push c) := by
  obtain ⟨program, outbound, inbound⟩ := h
  cases outbound with
  | nil => cases hpop
  | cons d rest =>
    obtain ⟨rfl, rfl⟩ := Prod.mk.inj (some.inj hpop)
    rfl

end Half

inductive Turn where
  | left
  | right
  | rightward
  | leftward
  deriving DecidableEq

variable {ε' ι' ω' α' : Type}

def duplexStep (p : Port β ε ι) (q : Port β ε' ι') (s : Half β ε ι ω α × Half β ε' ι' ω' α') :
    Turn → Option (Half β ε ι ω α × Half β ε' ι' ω' α')
  | .left => (s.1.act p).map fun h => (h, s.2)
  | .right => (s.2.act q).map fun h => (s.1, h)
  | .rightward => s.1.pop.map fun bh => (bh.2, s.2.push bh.1)
  | .leftward => s.2.pop.map fun bh => (s.1.push bh.1, bh.2)

section Commutes

variable {p : Port β ε ι} {q : Port β ε' ι'} {s a b : Half β ε ι ω α × Half β ε' ι' ω' α'}

def Meet (p : Port β ε ι) (q : Port β ε' ι') (a b : Half β ε ι ω α × Half β ε' ι' ω' α')
    (l m : Turn) : Prop :=
  ∃ c, duplexStep p q a m = some c ∧ duplexStep p q b l = some c

theorem Meet.symm {l m : Turn} (h : Meet p q a b l m) : Meet p q b a m l := by
  obtain ⟨c, hc, hc'⟩ := h
  exact ⟨c, hc', hc⟩

theorem meet_left_right (ha : duplexStep p q s .left = some a)
    (hb : duplexStep p q s .right = some b) : Meet p q a b .left .right := by
  obtain ⟨h, hact, rfl⟩ := map_eq_some_iff.mp ha
  obtain ⟨h', hact', rfl⟩ := map_eq_some_iff.mp hb
  exact ⟨(h, h'), map_eq_some_iff.mpr ⟨h', hact', rfl⟩,
    map_eq_some_iff.mpr ⟨h, hact, rfl⟩⟩

theorem meet_left_rightward (ha : duplexStep p q s .left = some a)
    (hb : duplexStep p q s .rightward = some b) : Meet p q a b .left .rightward := by
  obtain ⟨h, hact, rfl⟩ := map_eq_some_iff.mp ha
  obtain ⟨⟨c, h₀⟩, hpop, rfl⟩ := map_eq_some_iff.mp hb
  obtain ⟨h₁, hpop', hact'⟩ := Half.act_pop hact hpop
  exact ⟨(h₁, s.2.push c), map_eq_some_iff.mpr ⟨_, hpop', rfl⟩,
    map_eq_some_iff.mpr ⟨_, hact', rfl⟩⟩

theorem meet_left_leftward (ha : duplexStep p q s .left = some a)
    (hb : duplexStep p q s .leftward = some b) : Meet p q a b .left .leftward := by
  obtain ⟨h, hact, rfl⟩ := map_eq_some_iff.mp ha
  obtain ⟨⟨c, h₀⟩, hpop, rfl⟩ := map_eq_some_iff.mp hb
  exact ⟨(h.push c, h₀), map_eq_some_iff.mpr ⟨_, hpop, rfl⟩,
    map_eq_some_iff.mpr ⟨_, Half.act_push hact c, rfl⟩⟩

theorem meet_right_rightward (ha : duplexStep p q s .right = some a)
    (hb : duplexStep p q s .rightward = some b) : Meet p q a b .right .rightward := by
  obtain ⟨h, hact, rfl⟩ := map_eq_some_iff.mp ha
  obtain ⟨⟨c, h₀⟩, hpop, rfl⟩ := map_eq_some_iff.mp hb
  exact ⟨(h₀, h.push c), map_eq_some_iff.mpr ⟨_, hpop, rfl⟩,
    map_eq_some_iff.mpr ⟨_, Half.act_push hact c, rfl⟩⟩

theorem meet_right_leftward (ha : duplexStep p q s .right = some a)
    (hb : duplexStep p q s .leftward = some b) : Meet p q a b .right .leftward := by
  obtain ⟨h, hact, rfl⟩ := map_eq_some_iff.mp ha
  obtain ⟨⟨c, h₀⟩, hpop, rfl⟩ := map_eq_some_iff.mp hb
  obtain ⟨h₁, hpop', hact'⟩ := Half.act_pop hact hpop
  exact ⟨(s.1.push c, h₁), map_eq_some_iff.mpr ⟨_, hpop', rfl⟩,
    map_eq_some_iff.mpr ⟨_, hact', rfl⟩⟩

theorem meet_rightward_leftward (ha : duplexStep p q s .rightward = some a)
    (hb : duplexStep p q s .leftward = some b) : Meet p q a b .rightward .leftward := by
  obtain ⟨⟨c, h⟩, hpop, rfl⟩ := map_eq_some_iff.mp ha
  obtain ⟨⟨d, h'⟩, hpop', rfl⟩ := map_eq_some_iff.mp hb
  exact ⟨(h.push d, h'.push c), map_eq_some_iff.mpr ⟨_, Half.pop_push c hpop', rfl⟩,
    map_eq_some_iff.mpr ⟨_, Half.pop_push d hpop, rfl⟩⟩

/-- **The two ends and the two directions of the transport move independently.** -/
theorem commutes_duplexStep (p : Port β ε ι) (q : Port β ε' ι') :
    Run.Commutes (S := Half β ε ι ω α × Half β ε' ι' ω' α') (duplexStep p q) := by
  intro s a b l m hne ha hb
  cases l with
  | left =>
    cases m with
    | left => exact absurd rfl hne
    | right => exact meet_left_right ha hb
    | rightward => exact meet_left_rightward ha hb
    | leftward => exact meet_left_leftward ha hb
  | right =>
    cases m with
    | left => exact (meet_left_right hb ha).symm
    | right => exact absurd rfl hne
    | rightward => exact meet_right_rightward ha hb
    | leftward => exact meet_right_leftward ha hb
  | rightward =>
    cases m with
    | left => exact (meet_left_rightward hb ha).symm
    | right => exact (meet_right_rightward hb ha).symm
    | rightward => exact absurd rfl hne
    | leftward => exact meet_rightward_leftward ha hb
  | leftward =>
    cases m with
    | left => exact (meet_left_leftward hb ha).symm
    | right => exact (meet_right_leftward hb ha).symm
    | rightward => exact (meet_rightward_leftward hb ha).symm
    | leftward => exact absurd rfl hne

end Commutes

def Half.solo (port : Port β ε ι) (h : Half β ε ι ω α) (_ : Unit) : Option (Half β ε ι ω α) :=
  h.act port

section Schedule

variable {port : Port β ε (List β)} {prog : Dialogue ε (List β) (List β) ω α} {r : Except ε α}
  {script : List (Exchange (List β) (List β))}

theorem Follows.put (port : Port β ε (List β)) {out : List β}
    (h : Follows prog (.put out :: script) r) (o i : List β) :
    ∃ n prog', Run.Steps (Half.solo port) n ⟨prog, o, i⟩ ⟨prog', o ++ out, i⟩
      ∧ Follows prog' script r := by
  generalize hs : Exchange.put out :: script = s at h
  induction h with
  | done r => cases hs
  | read _ => cases hs
  | write rest =>
    obtain ⟨hout, rfl⟩ := cons.inj hs
    cases hout
    exact ⟨1, _, .cons () rfl (.nil _), rest⟩
  | note _ ih =>
    obtain ⟨n, prog', hsteps, hrest⟩ := ih hs
    exact ⟨n + 1, prog', .cons () rfl hsteps, hrest⟩

theorem Follows.got {x : List β} (hx : port.Takes x) (h : Follows prog (.got x :: script) r)
    (o i : List β) : ∃ n prog', Run.Steps (Half.solo port) n ⟨prog, o, x ++ i⟩ ⟨prog', o, i⟩
      ∧ Follows prog' script r := by
  generalize hs : Exchange.got x :: script = s at h
  induction h with
  | done r => cases hs
  | write _ => cases hs
  | @read k x' script' r rest =>
    obtain ⟨hout, rfl⟩ := cons.inj hs
    cases hout
    have hact : (Half.mk (.read k) o (x ++ i)).solo port () = some ⟨k (.ok x), o, i⟩ :=
      map_eq_some_iff.mpr ⟨_, hx i, rfl⟩
    exact ⟨1, _, .cons () hact (.nil _), rest⟩
  | note _ ih =>
    obtain ⟨n, prog', hsteps, hrest⟩ := ih hs
    exact ⟨n + 1, prog', .cons () rfl hsteps, hrest⟩

theorem Follows.ends (port : Port β ε (List β)) (h : Follows prog [] r) (o i : List β) :
    ∃ n, Run.Steps (Half.solo port) n ⟨prog, o, i⟩ ⟨.done r, o, i⟩ := by
  generalize hs : [] = s at h
  induction h with
  | done r => exact ⟨0, .nil _⟩
  | read _ => cases hs
  | write _ => cases hs
  | note _ ih =>
    obtain ⟨n, hsteps⟩ := ih hs
    exact ⟨n + 1, .cons () rfl hsteps⟩

end Schedule

section Joint

variable {p : Port β ε (List β)} {q : Port β ε' (List β)} {n : Nat}

theorem steps_left {h h' : Half β ε (List β) ω α} (hsteps : Run.Steps (Half.solo p) n h h')
    (other : Half β ε' (List β) ω' α') : Run.Steps (duplexStep p q) n (h, other) (h', other) := by
  induction hsteps with
  | nil h => exact .nil _
  | cons l hact _ ih => exact .cons .left (map_eq_some_iff.mpr ⟨_, hact, rfl⟩) ih

theorem steps_right {h h' : Half β ε' (List β) ω' α'} (hsteps : Run.Steps (Half.solo q) n h h')
    (other : Half β ε (List β) ω α) : Run.Steps (duplexStep p q) n (other, h) (other, h') := by
  induction hsteps with
  | nil h => exact .nil _
  | cons l hact _ ih => exact .cons .right (map_eq_some_iff.mpr ⟨_, hact, rfl⟩) ih

theorem steps_rightward (a : Dialogue ε (List β) (List β) ω α)
    (b : Dialogue ε' (List β) (List β) ω' α') (o i o' i' : List β) :
    Run.Steps (duplexStep p q) o.length (⟨a, o, i⟩, ⟨b, o', i'⟩)
      (⟨a, [], i⟩, ⟨b, o', i' ++ o⟩) := by
  induction o generalizing i' with
  | nil =>
    rw [append_nil]
    exact .nil _
  | cons c rest ih =>
    have h := ih (i' ++ [c])
    rw [append_assoc] at h
    exact .cons .rightward rfl h

theorem steps_leftward (a : Dialogue ε (List β) (List β) ω α)
    (b : Dialogue ε' (List β) (List β) ω' α') (o i o' i' : List β) :
    Run.Steps (duplexStep p q) o'.length (⟨a, o, i⟩, ⟨b, o', i'⟩)
      (⟨a, o, i ++ o'⟩, ⟨b, [], i'⟩) := by
  induction o' generalizing i with
  | nil =>
    rw [append_nil]
    exact .nil _
  | cons c rest ih =>
    have h := ih (i ++ [c])
    rw [append_assoc] at h
    exact .cons .leftward rfl h

/-- An order for the exchanges of two programs, with the items that are unread on the right and on
the left: an item is read when it is the first one unread. -/
inductive Joint : List (List β) → List (List β) → List (Exchange (List β) (List β)) →
    List (Exchange (List β) (List β)) → Prop
  | nil : Joint [] [] [] []
  | putLeft {r l : List (List β)} {out : List β} {sl sr : List (Exchange (List β) (List β))}
      (h : Joint (r ++ [out]) l sl sr) : Joint r l (.put out :: sl) sr
  | gotLeft {r l : List (List β)} {x : List β} {sl sr : List (Exchange (List β) (List β))}
      (h : Joint r l sl sr) : Joint r (x :: l) (.got x :: sl) sr
  | putRight {r l : List (List β)} {out : List β} {sl sr : List (Exchange (List β) (List β))}
      (h : Joint r (l ++ [out]) sl sr) : Joint r l sl (.put out :: sr)
  | gotRight {r l : List (List β)} {x : List β} {sl sr : List (Exchange (List β) (List β))}
      (h : Joint r l sl sr) : Joint (x :: r) l sl (.got x :: sr)

theorem Joint.symm {r l : List (List β)} {sl sr : List (Exchange (List β) (List β))}
    (h : Joint r l sl sr) : Joint l r sr sl := by
  induction h with
  | nil => exact .nil
  | putLeft _ ih => exact .putRight ih
  | gotLeft _ ih => exact .gotRight ih
  | putRight _ ih => exact .putLeft ih
  | gotRight _ ih => exact .gotLeft ih

variable {left : Dialogue ε (List β) (List β) ω α} {right : Dialogue ε' (List β) (List β) ω' α'}
  {rl : Except ε α} {rr : Except ε' α'} {sl sr : List (Exchange (List β) (List β))}

theorem steps_of_joint {r l : List (List β)} (hjoint : Joint r l sl sr)
    (hleft : Follows left sl rl) (hright : Follows right sr rr)
    (hp : ∀ x, .got x ∈ sl → p.Takes x) (hq : ∀ x, .got x ∈ sr → q.Takes x) :
    ∃ n, Run.Steps (duplexStep p q) n (⟨left, [], l.flatten⟩, ⟨right, [], r.flatten⟩)
      (⟨.done rl, [], []⟩, ⟨.done rr, [], []⟩) := by
  induction hjoint generalizing left right with
  | nil =>
    obtain ⟨m, hm⟩ := hleft.ends p [] []
    obtain ⟨n, hn⟩ := hright.ends q [] []
    exact ⟨m + n, (steps_left hm _).trans (steps_right hn _)⟩
  | @putLeft r l out sl sr _ ih =>
    obtain ⟨m, left', hm, hrest⟩ := hleft.put p [] l.flatten
    obtain ⟨n, hn⟩ := ih hrest hright (fun x hx => hp x (mem_cons_of_mem _ hx)) hq
    rw [flatten_append, flatten_singleton] at hn
    exact ⟨_, ((steps_left hm _).trans (steps_rightward left' right out _ [] _)).trans hn⟩
  | @gotLeft r l x sl sr _ ih =>
    obtain ⟨m, left', hm, hrest⟩ := hleft.got (hp x mem_cons_self) [] l.flatten
    obtain ⟨n, hn⟩ := ih hrest hright (fun x hx => hp x (mem_cons_of_mem _ hx)) hq
    exact ⟨_, (steps_left hm _).trans hn⟩
  | @putRight r l out sl sr _ ih =>
    obtain ⟨m, right', hm, hrest⟩ := hright.put q [] r.flatten
    obtain ⟨n, hn⟩ := ih hleft hrest hp fun x hx => hq x (mem_cons_of_mem _ hx)
    rw [flatten_append, flatten_singleton] at hn
    exact ⟨_, ((steps_right hm _).trans (steps_leftward left right' [] _ out _)).trans hn⟩
  | @gotRight r l x sl sr _ ih =>
    obtain ⟨m, right', hm, hrest⟩ := hright.got (hq x mem_cons_self) [] r.flatten
    obtain ⟨n, hn⟩ := ih hleft hrest hp fun x hx => hq x (mem_cons_of_mem _ hx)
    exact ⟨_, (steps_right hm _).trans hn⟩

/-- **Two programs with a joint order end as their scripts say, under every schedule.** -/
theorem settles_of_joint (hjoint : Joint [] [] sl sr) (hleft : Follows left sl rl)
    (hright : Follows right sr rr) (hp : ∀ x, .got x ∈ sl → p.Takes x)
    (hq : ∀ x, .got x ∈ sr → q.Takes x) :
    Run.Settles (duplexStep p q) (⟨left, [], []⟩, ⟨right, [], []⟩)
      (⟨.done rl, [], []⟩, ⟨.done rr, [], []⟩) := by
  obtain ⟨n, hn⟩ := steps_of_joint hjoint hleft hright hp hq
  refine hn.settles (commutes_duplexStep p q) fun turn => ?_
  cases turn <;> rfl

/-- Both sides write everything they have, then read all that the other side wrote. -/
theorem joint_exchange (r l a b : List (List β)) :
    Joint r l (a.map .put ++ (l ++ b).map .got) (b.map .put ++ (r ++ a).map .got) := by
  induction a generalizing r with
  | cons out a ih =>
    refine .putLeft ?_
    have h := ih (r ++ [out])
    rwa [append_assoc, singleton_append] at h
  | nil =>
    rw [append_nil, map_nil, nil_append]
    induction b generalizing l with
    | cons out b ih =>
      refine .putRight ?_
      have h := ih (l ++ [out])
      rwa [append_assoc, singleton_append] at h
    | nil =>
      rw [append_nil, map_nil, nil_append]
      induction l with
      | cons x l ih => exact .gotLeft ih
      | nil =>
        induction r with
        | cons x r ih => exact .gotRight ih
        | nil => exact .nil

end Joint

end Dialogue
