import Mathlib.Data.List.Basic
import Mathlib.Data.List.Induction
import Mathlib.Logic.Function.Basic
import PluginAudit.Cancellation

/-!
A cancellation after any history of operations. The history alone tells whether a token is
cancelled: the token has to stem from the channel, and the sender has to have cancelled before it
was dropped. Every poll of a wait on the token, a new one or one that goes on, tells the same.
-/

namespace PluginAudit.Cancellation

/-- A wait that has been polled and is not over. -/
inductive Wait where
  /-- It looks at the signal again when there is news. -/
  | forChange
  /-- It has heard that the sender is gone. -/
  | forEver

namespace Token

/-- The first poll of a wait on a token. Nothing is left of a wait that is over. -/
def firstPoll (t : Token) (s : Signal) : Option Wait × Token :=
  let (ready, t) := t.poll s
  (if ready then none else some (if (t.source s).hasSender then .forChange else .forEver), t)

/-- A later poll of a wait. -/
def nextPoll (t : Token) (s : Signal) : Wait → Option Wait × Token
  | .forEver => (some .forEver, t)
  | .forChange =>
    match (t.source s).news t.seen with
    | .changed => t.firstPoll s
    | .none => (some .forChange, t)
    | .closed => (some .forEver, t)

end Token

/-- A cancellation, and the waits that are kept on its tokens, at most one on each. -/
structure Watched where
  cancellation : Cancellation
  waits : Nat → Option Wait

inductive Operation where
  | cancel
  | dropSender
  | clone (token : Nat)
  | never
  | isCancelled (token : Nat)
  /-- Polls a new wait once, in the place of one that is kept, and gives it up. -/
  | poll (token : Nat)
  /-- Polls the wait that is kept on a token, or a new one, and keeps what is left of it. -/
  | await (token : Nat)
  | giveUp (token : Nat)

namespace Watched

def initial : Watched := ⟨.initial, fun _ => none⟩

def signal (w : Watched) : Signal := w.cancellation.signal

def token? (w : Watched) (i : Nat) : Option Token := w.cancellation.token? i

/-- A poll of the wait that is kept on a token, or of a new one. -/
def pollKept (w : Watched) (i : Nat) (t : Token) : Option Wait × Token :=
  match w.waits i with
  | none => t.firstPoll w.signal
  | some wait => t.nextPoll w.signal wait

/-- A token after a poll, and what is left of the wait on it. -/
def put (w : Watched) (i : Nat) (t : Token) (wait : Option Wait) : Watched :=
  ⟨{ w.cancellation with tokens := w.cancellation.tokens.set i t },
    Function.update w.waits i wait⟩

/-- Whether the wait on a token is over, and what is left of it. -/
def await (w : Watched) (i : Nat) : Bool × Watched :=
  match w.token? i with
  | none => (false, w)
  | some t =>
    let (wait, t) := w.pollKept i t
    (wait.isNone, w.put i t wait)

def perform (w : Watched) : Operation → Watched
  | .cancel => { w with cancellation := w.cancellation.cancel.2 }
  | .dropSender => { w with cancellation := w.cancellation.dropSender.2 }
  | .clone i => { w with cancellation := w.cancellation.clone i }
  | .never => { w with cancellation := w.cancellation.add .never }
  | .isCancelled _ => w
  | .poll i => ⟨(w.cancellation.poll i).2, Function.update w.waits i none⟩
  | .await i => (w.await i).2
  | .giveUp i => { w with waits := Function.update w.waits i none }

/-- What a history of operations leads to. -/
def after (ops : List Operation) : Watched := ops.foldl perform initial

end Watched

section Histories

/-- The sender has cancelled before it was dropped. -/
def Cancelled (ops : List Operation) : Prop :=
  ∃ before after, ops = before ++ .cancel :: after ∧ .dropSender ∉ before

def Operation.originsAfter (origins : List Bool) : Operation → List Bool
  | .clone i => origins ++ [origins[i]?.getD false]
  | .never => origins ++ [false]
  | _ => origins

/-- Of each token, whether it stems from the channel. -/
def origins (ops : List Operation) : List Bool := ops.foldl Operation.originsAfter [true]

variable {ops later : List Operation} {op : Operation}

theorem cancelled_concat :
    Cancelled (ops ++ [op]) ↔ Cancelled ops ∨ op = .cancel ∧ .dropSender ∉ ops := by
  constructor
  · rintro ⟨before, after, split, undropped⟩
    rcases List.eq_nil_or_concat after with rfl | ⟨after, last, rfl⟩
    · obtain ⟨rfl, same⟩ := List.append_inj' split rfl
      cases same
      exact .inr ⟨rfl, undropped⟩
    · rw [List.concat_eq_append, ← List.cons_append, ← List.append_assoc] at split
      exact .inl ⟨before, after, (List.append_inj' split rfl).1, undropped⟩
  · rintro (⟨before, after, rfl, undropped⟩ | ⟨rfl, undropped⟩)
    · exact ⟨before, after ++ [op], by simp, undropped⟩
    · exact ⟨ops, [], rfl, undropped⟩

theorem Cancelled.append (cancelled : Cancelled ops) (later : List Operation) :
    Cancelled (ops ++ later) := by
  obtain ⟨before, after, rfl, undropped⟩ := cancelled
  exact ⟨before, after ++ later, by simp, undropped⟩

/-- What the sender has not done before it is dropped, it never does. -/
theorem cancelled_append_of_dropped (dropped : .dropSender ∈ ops) :
    Cancelled (ops ++ later) ↔ Cancelled ops := by
  induction later using List.reverseRecOn with
  | nil => rw [List.append_nil]
  | append_singleton later op ih =>
    rw [← List.append_assoc, cancelled_concat, ih]
    simp [dropped]

theorem origins_concat : origins (ops ++ [op]) = op.originsAfter (origins ops) :=
  List.foldl_concat ..

/-- A token keeps its origin. -/
theorem origins_append (ops later : List Operation) : origins ops <+: origins (ops ++ later) := by
  induction later using List.reverseRecOn with
  | nil => simp
  | append_singleton later op ih =>
    rw [← List.append_assoc, origins_concat]
    refine ih.trans ?_
    cases op with
    | clone i => exact List.prefix_append ..
    | never => exact List.prefix_append ..
    | _ => exact List.prefix_rfl

theorem origin_append {i : Nat} {stems : Bool} (there : (origins ops)[i]? = some stems) :
    (origins (ops ++ later))[i]? = some stems := by
  obtain ⟨more, same⟩ := origins_append ops later
  obtain ⟨inside, -⟩ := List.getElem?_eq_some_iff.mp there
  rw [← same, List.getElem?_append_left inside, there]

/-- A copy is the last token, and has the origin of the token that is copied. -/
theorem origin_clone {i : Nat} {stems : Bool} (there : (origins ops)[i]? = some stems) :
    (origins (ops ++ .clone i :: later))[(origins ops).length]? = some stems := by
  have copied : (origins (ops ++ [.clone i]))[(origins ops).length]? = some stems := by
    rw [origins_concat, Operation.originsAfter, List.getElem?_concat_length, there]
    rfl
  rw [List.append_cons]
  exact origin_append copied

end Histories

section Polls

variable {t : Token} {s : Signal} {wait : Wait}

/-- The signal has been sent exactly if it stands for cancellation. -/
def Signal.Sent (s : Signal) : Prop := s.version = 0 ↔ s.value = false

theorem Signal.Sent.source (sent : s.Sent) (t : Token) : (t.source s).Sent := by
  rw [Token.source]
  split
  · exact sent
  · simp [Signal.Sent, Signal.silent]

theorem Token.isCancelled_eq (t : Token) (s : Signal) :
    t.isCancelled s = (t.hasSource && s.value) := by
  rw [isCancelled, source]
  cases t.hasSource <;> rfl

/-- A wait has seen all there is to see when it has looked, so one look decides. -/
theorem Token.poll_eq (t : Token) (s : Signal) :
    t.poll s = (t.isCancelled s, { t with seen := (t.source s).version }) := by
  rw [poll, pollFrom, isCancelled]
  cases value : (t.source s).value with
  | true => rfl
  | false =>
    cases sender : (t.source s).hasSender <;> simp [Signal.news, sender]

/-- What a wait has found out when it is kept: nothing had been sent when it looked, and if it
waits for ever, nothing will be. -/
def Wait.Sound (t : Token) (s : Signal) : Wait → Prop
  | .forChange => t.seen = 0
  | .forEver => (t.source s).value = false ∧ (t.source s).hasSender = false

/-- A poll on a token: the wait is over exactly if the token is cancelled, and what is left of it
is sound. -/
structure Token.Polled (t : Token) (s : Signal) (result : Option Wait × Token) : Prop where
  ended : result.1.isNone = t.isCancelled s
  source : result.2.hasSource = t.hasSource
  sound : ∀ wait ∈ result.1, wait.Sound result.2 s

theorem Token.firstPoll_eq (t : Token) (s : Signal) : t.firstPoll s =
    (if t.isCancelled s then none
      else some (if (t.source s).hasSender then .forChange else .forEver),
      { t with seen := (t.source s).version }) := by
  rw [firstPoll, poll_eq]
  rfl

theorem Token.firstPoll_polled (sent : s.Sent) (t : Token) : t.Polled s (t.firstPoll s) := by
  rw [firstPoll_eq]
  cases value : t.isCancelled s with
  | true => exact ⟨value.symm, rfl, by simp⟩
  | false =>
    refine ⟨value.symm, rfl, fun wait left => ?_⟩
    cases sender : (t.source s).hasSender with
    | true =>
      simp only [sender, if_true] at left
      cases left
      exact (sent.source t).mpr value
    | false =>
      simp only [sender] at left
      cases left
      exact ⟨value, sender⟩

theorem Token.nextPoll_polled (sent : s.Sent) (sound : wait.Sound t s) :
    t.Polled s (t.nextPoll s wait) := by
  cases wait with
  | forEver =>
    refine ⟨sound.1.symm, rfl, fun wait left => ?_⟩
    cases left
    exact sound
  | forChange =>
    have unseen : t.seen = 0 := sound
    have inSource : (t.source s).version = 0 ↔ t.isCancelled s = false := sent.source t
    rw [nextPoll, Signal.news, unseen]
    by_cases changed : (t.source s).version = 0
    · rw [if_neg (not_not.mpr changed)]
      have untold := inSource.mp changed
      cases sender : (t.source s).hasSender with
      | true =>
        refine ⟨untold.symm, rfl, fun wait left => ?_⟩
        cases left
        exact unseen
      | false =>
        refine ⟨untold.symm, rfl, fun wait left => ?_⟩
        cases left
        exact ⟨untold, sender⟩
    · rw [if_pos changed]
      exact firstPoll_polled sent t

end Polls

section Steps

variable {t : Token} {s : Signal} {wait : Wait}

theorem Token.source_send (gone : (t.source s).hasSender = false) :
    t.source s.send = t.source s := by
  unfold source at gone ⊢
  split
  · next stems =>
    rw [if_pos stems] at gone
    simp [Signal.send, gone]
  · rfl

theorem Token.source_dropSender (t : Token) (s : Signal) :
    t.source s.dropSender = (t.source s).dropSender := by
  unfold source
  split <;> rfl

theorem Signal.Sent.send {s : Signal} (sent : s.Sent) : s.send.Sent := by
  unfold Signal.send
  split
  · simp [Signal.Sent]
  · exact sent

theorem Wait.Sound.send (sound : wait.Sound t s) : wait.Sound t s.send := by
  cases wait with
  | forChange => exact sound
  | forEver =>
    rw [Sound, Token.source_send sound.2]
    exact sound

theorem Wait.Sound.dropSender (sound : wait.Sound t s) : wait.Sound t s.dropSender := by
  cases wait with
  | forChange => exact sound
  | forEver =>
    rw [Sound, Token.source_dropSender]
    exact ⟨sound.1, rfl⟩

namespace Watched

variable {w : Watched} {ops : List Operation} {i : Nat}

def stems (w : Watched) : List Bool := w.cancellation.tokens.map (·.hasSource)

/-- Each wait that is kept is sound for its token. -/
def Kept (w : Watched) : Prop :=
  ∀ i wait, w.waits i = some wait → ∃ t, w.token? i = some t ∧ wait.Sound t w.signal

theorem pollKept_polled (kept : w.Kept) (sent : w.signal.Sent) (there : w.token? i = some t) :
    t.Polled w.signal (w.pollKept i t) := by
  unfold pollKept
  split
  · exact t.firstPoll_polled sent
  · next wait left =>
    obtain ⟨t', there', sound⟩ := kept i wait left
    cases there.symm.trans there'
    exact Token.nextPoll_polled sent sound

theorem await_eq (there : w.token? i = some t) : w.await i =
    ((w.pollKept i t).1.isNone, w.put i (w.pollKept i t).2 (w.pollKept i t).1) := by
  rw [await, there]

theorem await_none (absent : w.token? i = none) : w.await i = (false, w) := by
  rw [await, absent]

theorem poll_eq (there : w.token? i = some t) : w.cancellation.poll i =
    (t.isCancelled w.signal, { w.cancellation with
      tokens := w.cancellation.tokens.set i { t with seen := (t.source w.signal).version } }) := by
  have found : w.cancellation.token? i = some t := there
  have polled := t.poll_eq w.cancellation.signal
  simp only [Cancellation.poll, found, polled]
  rfl

theorem perform_poll (there : w.token? i = some t) : w.perform (.poll i) =
    w.put i { t with seen := (t.source w.signal).version } none := by
  rw [perform, poll_eq there]
  rfl

theorem perform_poll_none (absent : w.token? i = none) :
    w.perform (.poll i) = w.perform (.giveUp i) := by
  have missing : w.cancellation.token? i = none := absent
  rw [perform, Cancellation.poll, missing]
  rfl

/-- The signal after an operation. -/
theorem signal_perform (w : Watched) (op : Operation) : (w.perform op).signal =
    match op with
    | .cancel => w.signal.send
    | .dropSender => w.signal.dropSender
    | _ => w.signal := by
  cases op with
  | poll i =>
    cases there : w.token? i with
    | none =>
      rw [perform_poll_none there]
      rfl
    | some t =>
      rw [perform_poll there]
      rfl
  | await i =>
    cases there : w.token? i with
    | none => rw [perform, await_none there]
    | some t =>
      rw [perform, await_eq there]
      rfl
  | _ => rfl

theorem map_hasSource_set {tokens : List Token} {t' : Token} (there : tokens[i]? = some t)
    (same : t'.hasSource = t.hasSource) :
    (tokens.set i t').map (·.hasSource) = tokens.map (·.hasSource) := by
  have origin : (tokens.map (·.hasSource))[i]? = some t'.hasSource := by
    rw [List.getElem?_map, there, Option.map_some, same]
  obtain ⟨inside, held⟩ := List.getElem?_eq_some_iff.mp origin
  rw [List.map_set, ← held, List.set_getElem_self]

theorem stems_perform (kept : w.Kept) (sent : w.signal.Sent) (op : Operation) :
    (w.perform op).stems = op.originsAfter w.stems := by
  cases op with
  | clone i =>
    have copied : ((w.token? i).getD .never).hasSource = w.stems[i]?.getD false := by
      rw [stems, List.getElem?_map]
      change ((w.cancellation.tokens[i]?).getD .never).hasSource = _
      cases w.cancellation.tokens[i]? <;> rfl
    change (w.cancellation.tokens ++ [(w.token? i).getD .never]).map (·.hasSource) = _
    rw [List.map_append, List.map_singleton, copied]
    rfl
  | never => exact List.map_append
  | poll i =>
    cases there : w.token? i with
    | none =>
      rw [perform_poll_none there]
      rfl
    | some t =>
      rw [perform_poll there]
      exact map_hasSource_set there rfl
  | await i =>
    cases there : w.token? i with
    | none =>
      rw [perform, await_none there]
      rfl
    | some t =>
      rw [perform, await_eq there]
      exact map_hasSource_set there (pollKept_polled kept sent there).source
  | _ => rfl

theorem token?_put_self (there : w.token? i = some t) (t' : Token) (wait : Option Wait) :
    (w.put i t' wait).token? i = some t' := by
  obtain ⟨inside, -⟩ := List.getElem?_eq_some_iff.mp there
  exact List.getElem?_set_self inside

theorem token?_put_of_ne {j : Nat} (other : j ≠ i) (t : Token) (wait : Option Wait) :
    (w.put i t wait).token? j = w.token? j := List.getElem?_set_ne (Ne.symm other)

theorem Kept.add (kept : w.Kept) (t : Token) :
    Kept { w with cancellation := w.cancellation.add t } := by
  intro i wait held
  obtain ⟨t', there, sound⟩ := kept i wait held
  obtain ⟨inside, -⟩ := List.getElem?_eq_some_iff.mp there
  exact ⟨t', (List.getElem?_append_left inside).trans there, sound⟩

theorem Kept.put {left : Option Wait} (kept : w.Kept) (there : w.token? i = some t) {t' : Token}
    (sound : ∀ wait ∈ left, wait.Sound t' w.signal) : (w.put i t' left).Kept := by
  intro j wait held
  by_cases here : j = i
  · subst here
    simp only [Watched.put, Function.update_self] at held
    exact ⟨t', token?_put_self there t' left, sound wait held⟩
  · simp only [Watched.put, Function.update_of_ne here] at held
    obtain ⟨t'', there', sound'⟩ := kept j wait held
    exact ⟨t'', (token?_put_of_ne here t' left).trans there', sound'⟩

theorem Kept.giveUp (kept : w.Kept) (i : Nat) : (w.perform (.giveUp i)).Kept := by
  intro j wait held
  by_cases here : j = i
  · subst here
    simp only [Watched.perform, Function.update_self] at held
    cases held
  · simp only [Watched.perform, Function.update_of_ne here] at held
    exact kept j wait held

theorem Kept.perform (kept : w.Kept) (sent : w.signal.Sent) (op : Operation) :
    (w.perform op).Kept := by
  cases op with
  | cancel =>
    intro i wait left
    obtain ⟨t, there, sound⟩ := kept i wait left
    exact ⟨t, there, sound.send⟩
  | dropSender =>
    intro i wait left
    obtain ⟨t, there, sound⟩ := kept i wait left
    exact ⟨t, there, sound.dropSender⟩
  | clone i => exact kept.add _
  | never => exact kept.add _
  | isCancelled i => exact kept
  | poll i =>
    cases there : w.token? i with
    | none =>
      rw [perform_poll_none there]
      exact kept.giveUp i
    | some t =>
      rw [perform_poll there]
      exact kept.put there (by simp)
  | await i =>
    cases there : w.token? i with
    | none =>
      rw [Watched.perform, await_none there]
      exact kept
    | some t =>
      rw [Watched.perform, await_eq there]
      exact kept.put there (pollKept_polled kept sent there).sound
  | giveUp i => exact kept.giveUp i

/-- What a history says of the signal and the tokens it leads to, and what holds of the waits. -/
structure Reached (ops : List Operation) (w : Watched) : Prop where
  value : w.signal.value = true ↔ Cancelled ops
  sender : w.signal.hasSender = true ↔ .dropSender ∉ ops
  sent : w.signal.Sent
  stems : w.stems = origins ops
  kept : w.Kept

theorem Reached.perform (reached : Reached ops w) (op : Operation) :
    Reached (ops ++ [op]) (w.perform op) := by
  have signal := signal_perform w op
  refine ⟨?_, ?_, ?_, ?_, reached.kept.perform reached.sent op⟩
  · rw [signal, cancelled_concat, ← reached.value]
    cases op with
    | cancel =>
      rw [← reached.sender]
      cases sender : w.signal.hasSender <;> simp [Signal.send, sender]
    | _ => simp [Signal.dropSender]
  · rw [signal]
    cases op with
    | cancel =>
      have same : w.signal.send.hasSender = w.signal.hasSender := by
        unfold Signal.send
        split <;> rfl
      simpa [same] using reached.sender
    | dropSender => simp [Signal.dropSender]
    | _ => simpa using reached.sender
  · rw [signal]
    cases op with
    | cancel => exact reached.sent.send
    | _ => exact reached.sent
  · rw [origins_concat, ← reached.stems]
    exact stems_perform reached.kept reached.sent op

theorem reached (ops : List Operation) : Reached ops (after ops) := by
  induction ops using List.reverseRecOn with
  | nil =>
    refine ⟨?_, ?_, ?_, rfl, fun i wait held => by cases held⟩
    · simp [after, initial, signal, Cancellation.initial, Signal.initial, Cancelled]
    · simp [after, initial, signal, Cancellation.initial, Signal.initial]
    · simp [after, initial, signal, Cancellation.initial, Signal.initial, Signal.Sent]
  | append_singleton ops op ih =>
    rw [after, List.foldl_concat]
    exact ih.perform op

/-- All that a token can be asked has the same answer. -/
structure Agrees (w : Watched) (i : Nat) (cancelled : Prop) : Prop where
  told : w.cancellation.isCancelled i = true ↔ cancelled
  polled : (w.cancellation.poll i).1 = true ↔ cancelled
  awaited : (w.await i).1 = true ↔ cancelled

theorem Agrees.congr {cancelled cancelled' : Prop} (agrees : w.Agrees i cancelled)
    (same : cancelled ↔ cancelled') : w.Agrees i cancelled' :=
  ⟨agrees.told.trans same, agrees.polled.trans same, agrees.awaited.trans same⟩

theorem Reached.agrees {stems : Bool} (reached : Reached ops w)
    (there : (origins ops)[i]? = some stems) : w.Agrees i (stems = true ∧ Cancelled ops) := by
  rw [← reached.stems, Watched.stems, List.getElem?_map] at there
  obtain ⟨t, found, rfl⟩ := Option.map_eq_some_iff.mp there
  have told : t.isCancelled w.signal = true ↔ t.hasSource = true ∧ Cancelled ops := by
    rw [Token.isCancelled_eq, Bool.and_eq_true, reached.value]
  have asked : w.cancellation.isCancelled i = t.isCancelled w.signal := by
    rw [Cancellation.isCancelled, Cancellation.token?, found]
    rfl
  refine ⟨by rw [asked, told], ?_, ?_⟩
  · rw [poll_eq found, told]
  · rw [await_eq found, (pollKept_polled reached.kept reached.sent found).ended, told]

end Watched

end Steps

open Watched (after)

/-- After every history the tokens are those that it tells of. Each of them is cancelled, and every
wait on it is over, exactly if it stems from the channel and the sender has cancelled before it was
dropped. So a token that is cancelled stays so whatever is done later, one that stems from elsewhere
or whose sender is gone without having cancelled never is, and a copy always agrees with the token
that it has been made of. -/
theorem agrees_with_history (ops : List Operation) :
    (after ops).cancellation.tokens.length = (origins ops).length ∧
    ∀ i stems, (origins ops)[i]? = some stems →
      (after ops).Agrees i (stems = true ∧ Cancelled ops) ∧
      ∀ later,
        (stems = true → Cancelled ops → (after (ops ++ later)).Agrees i True) ∧
        (stems = false ∨ .dropSender ∈ ops ∧ ¬Cancelled ops →
          (after (ops ++ later)).Agrees i False) ∧
        ∃ cancelled, (after (ops ++ .clone i :: later)).Agrees i cancelled ∧
          (after (ops ++ .clone i :: later)).Agrees (origins ops).length cancelled := by
  refine ⟨?_, fun i stems there => ⟨(Watched.reached ops).agrees there, fun later => ?_⟩⟩
  · rw [← (Watched.reached ops).stems]
    exact (List.length_map _).symm
  · have kept := (Watched.reached (ops ++ later)).agrees (origin_append there)
    refine ⟨fun stem cancelled => ?_, fun never => ?_, ?_⟩
    · exact kept.congr (iff_true_intro ⟨stem, cancelled.append later⟩)
    · refine kept.congr (iff_false_intro ?_)
      rintro ⟨stem, cancelled⟩
      rcases never with foreign | ⟨dropped, uncancelled⟩
      · cases stem.symm.trans foreign
      · exact uncancelled ((cancelled_append_of_dropped dropped).mp cancelled)
    · have copied := Watched.reached (ops ++ .clone i :: later)
      exact ⟨_, copied.agrees (origin_append there), copied.agrees (origin_clone there)⟩

/-- A copy, whose wait is kept when the sender cancels and goes, and a token without a sender. -/
theorem agrees_with_history_copy :
    (after [.clone 0, .await 1, .cancel, .dropSender]).Agrees 1 True ∧
    (after [.never, .await 1, .cancel, .dropSender]).Agrees 1 False := by
  constructor
  · exact (((agrees_with_history [.clone 0, .await 1, .cancel]).2 1 true rfl).2 [.dropSender]).1 rfl
      ⟨[.clone 0, .await 1], [], rfl, by simp⟩
  · exact (((agrees_with_history [.never]).2 1 false rfl).2 [.await 1, .cancel, .dropSender]).2.1
      (.inl rfl)

end PluginAudit.Cancellation
