import BigfleetDashboard.Channels
import Mathlib.Data.List.Induction

/-!
# The life of the process

`Run` starts a goroutine that serves until the listener fails or the server is shut down, and
waits for a signal or for an error of that goroutine, whichever comes first; `main` turns what
`Run` returns into the exit code. The two goroutines share the channel `errCh`, and any
interleaving of their steps with what happens around the process is a run.
-/
namespace BigfleetDashboard.Lifecycle
open Channels

variable {ε : Type}

/-! ## The process -/

/-- An error, as far as the process tells errors apart. -/
inductive RunError (ε : Type)
  | serverClosed
  | deadlineExceeded
  | other (err : ε)

/-- `errors.Is(err, http.ErrServerClosed)`. -/
def RunError.isServerClosed : RunError ε → Bool
  | .serverClosed => true
  | _ => false

/-- Where the goroutine that serves stands. -/
inductive Listener (ε : Type)
  | serving
  | served (err : RunError ε)
  | closing
  | finished

/-- Where `main` stands: in the select of `Run`, in `Shutdown`, behind `Run`, or at its end. -/
inductive Main (ε : Type)
  | selecting
  | draining
  | returned (err : Option (RunError ε))
  | exited (code : ℕ)

structure Process (ε : Type) where
  main : Main ε
  listener : Listener ε
  errCh : Chan (RunError ε) 1
  /-- The context of the signals is done. -/
  signalled : Bool
  /-- `Shutdown` was called. -/
  shuttingDown : Bool
  /-- The five seconds of `Shutdown` are over. -/
  expired : Bool
  /-- The connections that are not idle. -/
  busy : ℕ
  panicked : Bool

inductive Event (ε : Type)
  | signal
  | connections (busy : ℕ)
  | timeout
  | serve (err : RunError ε)
  | goroutine
  | selectDone
  | selectErr
  | shutdown (err : Option (RunError ε))
  | expire
  | exit

/-- The steps that the process makes itself. -/
def Event.own : Event ε → Bool
  | .signal | .connections _ | .timeout => false
  | _ => true

def start : Process ε where
  main := .selecting
  listener := .serving
  errCh := Chan.make (RunError ε) 1
  signalled := false
  shuttingDown := false
  expired := false
  busy := 0
  panicked := false

/-- The statements of the goroutine after `ListenAndServe` has returned. -/
def Process.goroutine (p : Process ε) : Option (Process ε) :=
  match p.listener with
  | .serving => none
  | .served err =>
    if err.isServerClosed then some { p with listener := .closing }
    else
      match p.errCh.send err with
      | .proceeds ch => some { p with listener := .closing, errCh := ch }
      | .blocks => none
      | .panics => some { p with panicked := true }
  | .closing =>
    match p.errCh.close with
    | .proceeds ch => some { p with listener := .finished, errCh := ch }
    | .blocks => none
    | .panics => some { p with panicked := true }
  | .finished => none

/-- `ListenAndServe` returns an error always, and `ErrServerClosed` after `Shutdown` only. -/
def Process.serve (p : Process ε) (err : RunError ε) : Option (Process ε) :=
  match p.listener with
  | .serving =>
    if err.isServerClosed && !p.shuttingDown then none
    else some { p with listener := .served err }
  | _ => none

/-- The exit code that `main` makes of what `Run` returned. -/
def exitCode : Option (RunError ε) → ℕ
  | none => 0
  | some _ => 1

/-- The steps of `main`. `Shutdown` returns when no connection is busy, or when its time is
over. -/
def Process.mainStep (p : Process ε) (event : Event ε) : Option (Process ε) :=
  match p.main, event with
  | .selecting, .selectDone =>
    if p.signalled then some { p with main := .draining, shuttingDown := true } else none
  | .selecting, .selectErr =>
    p.errCh.receive.map (fun got => { p with main := .returned got.1, errCh := got.2 })
  | .draining, .shutdown err =>
    if p.busy = 0 then some { p with main := .returned err } else none
  | .draining, .expire =>
    if p.expired then some { p with main := .returned (some .deadlineExceeded) } else none
  | .returned err, .exit => some { p with main := .exited (exitCode err) }
  | _, _ => none

def Process.ended (p : Process ε) : Bool :=
  match p.main with
  | .exited _ => true
  | _ => p.panicked

def Process.step (p : Process ε) (event : Event ε) : Option (Process ε) :=
  if p.ended then none
  else
    match event with
    | .signal => some { p with signalled := true }
    | .connections busy => some { p with busy := busy }
    | .timeout => if p.shuttingDown then some { p with expired := true } else none
    | .serve err => p.serve err
    | .goroutine => p.goroutine
    | event => p.mainStep event

def Process.run (p : Process ε) (events : List (Event ε)) : Option (Process ε) :=
  events.foldlM Process.step p

theorem run_snoc {p last : Process ε} {events : List (Event ε)} {event : Event ε} :
    p.run (events ++ [event]) = some last ↔
      ∃ middle, p.run events = some middle ∧ middle.step event = some last := by
  rw [Process.run, List.foldlM_append, Option.bind_eq_bind, Option.bind_eq_some_iff]
  constructor
  · intro ⟨middle, hmiddle, hlast⟩
    rw [List.foldlM_cons, Option.bind_eq_bind, Option.bind_eq_some_iff] at hlast
    obtain ⟨p', hstep, hnil⟩ := hlast
    obtain rfl := Option.some.inj hnil
    exact ⟨middle, hmiddle, hstep⟩
  · intro ⟨middle, hmiddle, hstep⟩
    refine ⟨middle, hmiddle, ?_⟩
    rw [List.foldlM_cons, hstep]
    rfl

/-- What a step can do. -/
inductive Moves (p : Process ε) : Event ε → Process ε → Prop
  | signal : Moves p .signal { p with signalled := true }
  | connections (busy : ℕ) : Moves p (.connections busy) { p with busy := busy }
  | timeout (shutting : p.shuttingDown = true) : Moves p .timeout { p with expired := true }
  | serve {err : RunError ε} {next : Process ε} (step : p.serve err = some next) :
      Moves p (.serve err) next
  | goroutine {next : Process ε} (step : p.goroutine = some next) : Moves p .goroutine next
  | selectDone (at_select : p.main = .selecting) (signalled : p.signalled = true) :
      Moves p .selectDone { p with main := .draining, shuttingDown := true }
  | selectErr {got : Option (RunError ε)} {ch : Chan (RunError ε) 1}
      (at_select : p.main = .selecting) (received : p.errCh.receive = some (got, ch)) :
      Moves p .selectErr { p with main := .returned got, errCh := ch }
  | shutdown {err : Option (RunError ε)} (at_shutdown : p.main = .draining) (idle : p.busy = 0) :
      Moves p (.shutdown err) { p with main := .returned err }
  | expire (at_shutdown : p.main = .draining) (expired : p.expired = true) :
      Moves p .expire { p with main := .returned (some .deadlineExceeded) }
  | exit {err : Option (RunError ε)} (at_return : p.main = .returned err) :
      Moves p .exit { p with main := .exited (exitCode err) }

section Step
variable {p p' : Process ε} {event : Event ε}

theorem moves_of_mainStep (h : p.mainStep event = some p') : Moves p event p' := by
  unfold Process.mainStep at h
  split at h
  next hmain =>
    split_ifs at h with hsignalled
    obtain rfl := Option.some.inj h
    exact .selectDone hmain hsignalled
  next hmain =>
    obtain ⟨⟨got, ch⟩, hreceived, rfl⟩ := Option.map_eq_some_iff.mp h
    exact .selectErr hmain hreceived
  next hmain =>
    split_ifs at h with hidle
    obtain rfl := Option.some.inj h
    exact .shutdown hmain hidle
  next hmain =>
    split_ifs at h with hexpired
    obtain rfl := Option.some.inj h
    exact .expire hmain hexpired
  next hmain =>
    obtain rfl := Option.some.inj h
    exact .exit hmain
  next => cases h

theorem step_eq_some_iff : p.step event = some p' ↔ p.ended = false ∧ Moves p event p' := by
  unfold Process.step
  cases hended : p.ended with
  | true => simp
  | false =>
    rw [if_neg Bool.false_ne_true]
    constructor
    · intro h
      refine ⟨rfl, ?_⟩
      cases event with
      | signal =>
        obtain rfl := Option.some.inj h
        exact .signal
      | connections busy =>
        obtain rfl := Option.some.inj h
        exact .connections busy
      | timeout =>
        dsimp only at h
        split_ifs at h with hshut
        obtain rfl := Option.some.inj h
        exact .timeout hshut
      | serve err => exact .serve h
      | goroutine => exact .goroutine h
      | _ => exact moves_of_mainStep h
    · rintro ⟨-, h⟩
      cases h with
      | signal => rfl
      | connections busy => rfl
      | timeout shutting => exact if_pos shutting
      | serve step => exact step
      | goroutine step => exact step
      | selectDone at_select signalled =>
        dsimp only [Process.mainStep]
        rw [at_select]
        exact if_pos signalled
      | selectErr at_select received =>
        dsimp only [Process.mainStep]
        rw [at_select, received]
        rfl
      | shutdown at_shutdown idle =>
        dsimp only [Process.mainStep]
        rw [at_shutdown]
        exact if_pos idle
      | expire at_shutdown expired =>
        dsimp only [Process.mainStep]
        rw [at_shutdown]
        exact if_pos expired
      | exit at_return =>
        dsimp only [Process.mainStep]
        rw [at_return]

end Step

/-! ## Why `Run` returned -/

/-- What the run did so that `Run` returned `err`. -/
inductive Explains (events : List (Event ε)) : Option (RunError ε) → Prop
  | drained (before after : List (Event ε)) {err : Option (RunError ε)} {p : Process ε}
      (split : events = before ++ .shutdown err :: after) (reached : start.run before = some p)
      (signalled : Event.signal ∈ before) (idle : p.busy = 0) : Explains events err
  | listenFailed {err : RunError ε} (served : Event.serve err ∈ events)
      (genuine : err.isServerClosed = false) : Explains events (some err)
  | timedOut (signalled : Event.signal ∈ events) (timeout : Event.timeout ∈ events) :
      Explains events (some .deadlineExceeded)

theorem Explains.append {events : List (Event ε)} {err : Option (RunError ε)}
    (h : Explains events err) (more : List (Event ε)) : Explains (events ++ more) err := by
  cases h with
  | drained before after split reached signalled idle =>
    refine .drained before (after ++ more) ?_ reached signalled idle
    rw [split, List.append_assoc, List.cons_append]
  | listenFailed served genuine => exact .listenFailed (List.mem_append_left _ served) genuine
  | timedOut signalled timeout =>
    exact .timedOut (List.mem_append_left _ signalled) (List.mem_append_left _ timeout)

/-- What the goroutine may still do with the channel, and what it has done. -/
def ListenerInv (events : List (Event ε)) (p : Process ε) : Listener ε → Prop
  | .serving => p.errCh.Room 1
  | .served err => p.errCh.Room 1 ∧ Event.serve err ∈ events ∧
      (err.isServerClosed = true → p.shuttingDown = true)
  | .closing => p.errCh.Room 0 ∧ (p.main = .selecting → p.errCh.buffer ≠ [])
  | .finished => p.main = .selecting → p.errCh.buffer ≠ []

def MainInv (events : List (Event ε)) (p : Process ε) : Main ε → Prop
  | .selecting => p.shuttingDown = false
  | .draining => p.signalled = true
  | .returned err => Explains events err
  | .exited code => ∃ err, code = exitCode err ∧ Explains events err

structure Inv (events : List (Event ε)) (p : Process ε) : Prop where
  calm : p.panicked = false
  signalled : p.signalled = true → Event.signal ∈ events
  expired : p.expired = true → Event.timeout ∈ events
  buffered : ∀ err ∈ p.errCh.buffer, Event.serve err ∈ events ∧ err.isServerClosed = false
  listener : ListenerInv events p p.listener
  main : MainInv events p p.main

theorem inv_start : Inv [] (start : Process ε) where
  calm := rfl
  signalled := by intro h; cases h
  expired := by intro h; cases h
  buffered := by intro err h; cases h
  listener := Chan.room_make
  main := rfl

section Steps
variable {events more : List (Event ε)} {event : Event ε} {p p' : Process ε}

theorem ListenerInv.mono {l : Listener ε} (h : ListenerInv events p l)
    (hch : p'.errCh = p.errCh) (hshut : p.shuttingDown = true → p'.shuttingDown = true)
    (hmain : p'.main = .selecting → p.main = .selecting) :
    ListenerInv (events ++ more) p' l := by
  cases l with
  | serving =>
    show p'.errCh.Room 1
    rw [hch]
    exact h
  | served err =>
    obtain ⟨hroom, hserved, hclosed⟩ := h
    exact ⟨hch ▸ hroom, List.mem_append_left more hserved, hshut ∘ hclosed⟩
  | closing => exact ⟨hch ▸ h.1, fun hsel => hch ▸ h.2 (hmain hsel)⟩
  | finished => exact fun hsel => hch ▸ h (hmain hsel)

theorem MainInv.mono {m : Main ε} (h : MainInv events p m)
    (hshut : p'.shuttingDown = p.shuttingDown) (hsignal : p.signalled = true → p'.signalled = true) :
    MainInv (events ++ more) p' m := by
  cases m with
  | selecting => exact hshut.trans h
  | draining => exact hsignal h
  | returned err => exact Explains.append h more
  | exited code =>
    obtain ⟨err, hcode, hexplains⟩ := h
    exact ⟨err, hcode, hexplains.append more⟩

theorem Inv.later (h : Inv events p) : Inv (events ++ more) p where
  calm := h.calm
  signalled := fun hs => List.mem_append_left more (h.signalled hs)
  expired := fun he => List.mem_append_left more (h.expired he)
  buffered := fun err herr =>
    ⟨List.mem_append_left more (h.buffered err herr).1, (h.buffered err herr).2⟩
  listener := h.listener.mono rfl id id
  main := h.main.mono rfl id

/-! ## The goroutine -/

theorem Inv.serve (h : Inv events p) {err : RunError ε} (hstep : p.serve err = some p') :
    Inv (events ++ [.serve err]) p' ∧ p.listener = .serving ∧
      p' = { p with listener := .served err } := by
  have hl : Inv (events ++ [.serve err]) p := h.later
  unfold Process.serve at hstep
  split at hstep
  next hserving =>
    split_ifs at hstep with hearly
    obtain rfl := Option.some.inj hstep
    have hlistener := h.listener
    rw [hserving] at hlistener
    refine ⟨⟨hl.calm, hl.signalled, hl.expired, hl.buffered, ⟨hlistener, ?_, ?_⟩,
      hl.main⟩, hserving, rfl⟩
    · exact List.mem_append_right _ (List.mem_singleton_self _)
    · intro hclosed
      rw [hclosed, Bool.true_and, Bool.not_eq_true', Bool.not_eq_false] at hearly
      exact hearly
  next => cases hstep

/-- Sending the error neither blocks nor panics: there is room for one value. -/
theorem Inv.goroutine_send (h : Inv events p) {err : RunError ε} (hat : p.listener = .served err)
    (hgenuine : err.isServerClosed = false) :
    ∃ ch, p.goroutine = some { p with listener := .closing, errCh := ch } ∧
      ch.buffer = p.errCh.buffer ++ [err] ∧ ch.Room 0 := by
  have hlistener := h.listener
  rw [hat] at hlistener
  obtain ⟨ch, hsend, hbuffer, hroom⟩ := hlistener.1.send err
  refine ⟨ch, ?_, hbuffer, hroom⟩
  rw [Process.goroutine, hat]
  simp only [hgenuine, Bool.false_eq_true, if_false, hsend]

theorem Inv.goroutine_skip {err : RunError ε} (hat : p.listener = .served err)
    (hclosed : err.isServerClosed = true) :
    p.goroutine = some { p with listener := .closing } := by
  rw [Process.goroutine, hat]
  exact if_pos hclosed

theorem Inv.goroutine_close (h : Inv events p) (hat : p.listener = .closing) :
    p.goroutine =
      some { p with listener := .finished, errCh := { p.errCh with closed := true } } := by
  have hlistener := h.listener
  rw [hat] at hlistener
  rw [Process.goroutine, hat]
  simp only [hlistener.1.close]

/-- A goroutine whose `ListenAndServe` has returned never blocks. -/
theorem Inv.exists_goroutine (h : Inv events p)
    (hat : (∃ err, p.listener = .served err) ∨ p.listener = .closing) :
    ∃ next, p.goroutine = some next := by
  obtain ⟨err, hserved⟩ | hclosing := hat
  · cases hclosed : err.isServerClosed with
    | true => exact ⟨_, Inv.goroutine_skip hserved hclosed⟩
    | false =>
      obtain ⟨ch, hsend, -⟩ := h.goroutine_send hserved hclosed
      exact ⟨_, hsend⟩
  · exact ⟨_, h.goroutine_close hclosing⟩

theorem Inv.goroutine (h : Inv events p) (hstep : p.goroutine = some p') :
    Inv (events ++ [.goroutine]) p' ∧ p'.main = p.main ∧
      ((∃ err, p.listener = .served err) ∧ p'.listener = .closing ∨
        p.listener = .closing ∧ p'.listener = .finished) := by
  have hl : Inv (events ++ [.goroutine]) p := h.later
  have hlistener := hl.listener
  cases hat : p.listener with
  | serving =>
    rw [Process.goroutine, hat] at hstep
    cases hstep
  | served err =>
    rw [hat] at hlistener
    obtain ⟨hroom, hserved, hclosed⟩ := hlistener
    cases herr : err.isServerClosed with
    | true =>
      obtain rfl := Option.some.inj ((Inv.goroutine_skip hat herr).symm.trans hstep)
      refine ⟨⟨hl.calm, hl.signalled, hl.expired, hl.buffered,
        ⟨hroom.mono (by omega), ?_⟩, hl.main⟩, rfl, Or.inl ⟨⟨err, rfl⟩, rfl⟩⟩
      -- after `Shutdown` was called, `Run` has left its select
      intro hsel
      have hmain := hl.main
      rw [show p.main = .selecting from hsel] at hmain
      cases hmain.symm.trans (hclosed herr)
    | false =>
      obtain ⟨ch, hsend, hbuffer, hroom'⟩ := h.goroutine_send hat herr
      obtain rfl := Option.some.inj (hsend.symm.trans hstep)
      refine ⟨⟨hl.calm, hl.signalled, hl.expired, ?_, ⟨hroom', ?_⟩, hl.main⟩, rfl,
        Or.inl ⟨⟨err, rfl⟩, rfl⟩⟩
      · intro e he
        rw [hbuffer, List.mem_append, List.mem_singleton] at he
        obtain he | rfl := he
        · exact hl.buffered e he
        · exact ⟨hserved, herr⟩
      · intro _
        rw [hbuffer]
        exact List.append_ne_nil_of_right_ne_nil _ (List.cons_ne_nil err [])
  | closing =>
    rw [hat] at hlistener
    obtain rfl := Option.some.inj ((h.goroutine_close hat).symm.trans hstep)
    exact ⟨⟨hl.calm, hl.signalled, hl.expired, hl.buffered, hlistener.2, hl.main⟩, rfl,
      Or.inr ⟨rfl, rfl⟩⟩
  | finished =>
    rw [Process.goroutine, hat] at hstep
    cases hstep

/-! ## `Run` and `main` -/

/-- The select receives an error of the listener: while it waits, the channel is not closed
without one. -/
theorem Inv.received (h : Inv events p) (hsel : p.main = .selecting) {got : Option (RunError ε)}
    {ch : Chan (RunError ε) 1} (hreceived : p.errCh.receive = some (got, ch)) :
    ∃ err, got = some err ∧ p.errCh.buffer = err :: ch.buffer := by
  obtain ⟨err, hgot, hbuffer, -⟩ | ⟨-, hempty, hclosed, -⟩ := Chan.receive_eq_some hreceived
  · exact ⟨err, hgot, hbuffer⟩
  · exfalso
    have hlistener := h.listener
    have hopen : ∀ {n}, ¬ p.errCh.Room n := by
      intro n hroom
      rw [hroom.isOpen] at hclosed
      cases hclosed
    cases hat : p.listener with
    | serving =>
      rw [hat] at hlistener
      exact hopen hlistener
    | served err =>
      rw [hat] at hlistener
      exact hopen hlistener.1
    | closing =>
      rw [hat] at hlistener
      exact hopen hlistener.1
    | finished =>
      rw [hat] at hlistener
      exact hlistener hsel hempty

/-- Once `Run` has left its select, the goroutine needs only room in the channel. -/
theorem ListenerInv.received {l : Listener ε} (h : ListenerInv events p l)
    {got : Option (RunError ε)} {ch : Chan (RunError ε) 1}
    (hreceived : p.errCh.receive = some (got, ch)) (result : Option (RunError ε)) :
    ListenerInv (events ++ more) { p with main := .returned result, errCh := ch } l := by
  cases l with
  | serving => exact Chan.Room.receive h hreceived
  | served err =>
    obtain ⟨hroom, hserved, hclosed⟩ := h
    exact ⟨hroom.receive hreceived, List.mem_append_left more hserved, hclosed⟩
  | closing => exact ⟨h.1.receive hreceived, fun hsel => by cases hsel⟩
  | finished => exact fun hsel => by cases hsel

/-- What `Run` returned needs an explanation, and nothing else. -/
theorem Inv.returned (h : Inv events p) {err : Option (RunError ε)}
    (hexplains : Explains (events ++ more) err) :
    Inv (events ++ more) { p with main := .returned err } := by
  have hl : Inv (events ++ more) p := h.later
  exact ⟨hl.calm, hl.signalled, hl.expired, hl.buffered,
    h.listener.mono rfl id (fun hsel => by cases hsel), hexplains⟩

/-- Every step keeps the invariant. -/
theorem Inv.moves (h : Inv events p) (hreached : start.run events = some p)
    (hmoves : Moves p event p') : Inv (events ++ [event]) p' := by
  have hl : Inv (events ++ [event]) p := h.later
  have hnew : event ∈ events ++ [event] := List.mem_append_right _ (List.mem_singleton_self _)
  cases hmoves with
  | signal =>
    exact ⟨hl.calm, fun _ => hnew, hl.expired, hl.buffered, hl.listener,
      h.main.mono rfl (fun _ => rfl)⟩
  | connections busy =>
    exact ⟨hl.calm, hl.signalled, hl.expired, hl.buffered, hl.listener, hl.main⟩
  | timeout shutting =>
    exact ⟨hl.calm, hl.signalled, fun _ => hnew, hl.buffered, hl.listener, hl.main⟩
  | serve step => exact (h.serve step).1
  | goroutine step => exact (h.goroutine step).1
  | selectDone at_select signalled =>
    exact ⟨hl.calm, hl.signalled, hl.expired, hl.buffered,
      h.listener.mono rfl (fun _ => rfl) (fun hsel => by cases hsel), signalled⟩
  | selectErr at_select received =>
    obtain ⟨err, rfl, hbuffer⟩ := h.received at_select received
    refine ⟨hl.calm, hl.signalled, hl.expired, ?_,
      h.listener.received received (some err), ?_⟩
    · intro e he
      refine hl.buffered e ?_
      rw [hbuffer]
      exact List.mem_cons_of_mem err he
    · obtain ⟨hserved, hgenuine⟩ := hl.buffered err (by rw [hbuffer]; exact List.mem_cons_self)
      exact .listenFailed hserved hgenuine
  | shutdown at_shutdown idle =>
    have hmain := h.main
    rw [at_shutdown] at hmain
    exact h.returned (.drained events [] rfl hreached (h.signalled hmain) idle)
  | expire at_shutdown expired =>
    have hmain := hl.main
    rw [at_shutdown] at hmain
    exact h.returned (.timedOut (hl.signalled hmain) (hl.expired expired))
  | exit at_return =>
    have hmain := hl.main
    rw [at_return] at hmain
    exact ⟨hl.calm, hl.signalled, hl.expired, hl.buffered,
      h.listener.mono rfl id (fun hsel => by cases hsel), _, rfl, hmain⟩

theorem inv_run (h : start.run events = some p) : Inv events p := by
  induction events using List.reverseRecOn generalizing p with
  | nil =>
    obtain rfl := Option.some.inj h
    exact inv_start
  | append_singleton events event ih =>
    obtain ⟨middle, hmiddle, hstep⟩ := run_snoc.mp h
    exact (ih hmiddle).moves hmiddle (step_eq_some_iff.mp hstep).2

/-! ## How long it takes -/

def Main.left : Main ε → ℕ
  | .selecting => 3
  | .draining => 2
  | .returned _ => 1
  | .exited _ => 0

def Listener.left : Listener ε → ℕ
  | .serving => 3
  | .served _ => 2
  | .closing => 1
  | .finished => 0

/-- The steps that the process may still make itself. -/
def Process.left (p : Process ε) : ℕ := p.main.left + p.listener.left

theorem left_of_main (hown : event.own = true) (hlistener : p'.listener = p.listener)
    (h : p'.main.left + 1 ≤ p.main.left) : p'.left + [event].countP Event.own ≤ p.left := by
  rw [List.countP_singleton, if_pos hown, Process.left, Process.left, hlistener]
  omega

theorem Inv.left_moves (h : Inv events p) (hmoves : Moves p event p') :
    p'.left + [event].countP Event.own ≤ p.left := by
  cases hmoves with
  | signal => exact Nat.le_refl _
  | connections busy => exact Nat.le_refl _
  | timeout shutting => exact Nat.le_refl _
  | serve step =>
    obtain ⟨-, hserving, rfl⟩ := h.serve step
    simp [Process.left, hserving, Listener.left, Event.own]
  | goroutine step =>
    obtain ⟨-, hmain, ⟨⟨err, hserved⟩, hclosing⟩ | ⟨hclosing, hfinished⟩⟩ := h.goroutine step
    · simp [Process.left, hmain, hserved, hclosing, Listener.left, Event.own]
    · simp [Process.left, hmain, hclosing, hfinished, Listener.left, Event.own]
  | selectDone at_select signalled =>
    refine left_of_main rfl rfl ?_
    rw [at_select]
    exact Nat.le_refl 3
  | selectErr at_select received =>
    refine left_of_main rfl rfl ?_
    rw [at_select]
    exact Nat.le_succ 2
  | shutdown at_shutdown idle =>
    refine left_of_main rfl rfl ?_
    rw [at_shutdown]
    exact Nat.le_refl 2
  | expire at_shutdown expired =>
    refine left_of_main rfl rfl ?_
    rw [at_shutdown]
    exact Nat.le_refl 2
  | exit at_return =>
    refine left_of_main rfl rfl ?_
    rw [at_return]
    exact Nat.le_refl 1

theorem left_run (h : start.run events = some p) : p.left + events.countP Event.own ≤ 6 := by
  induction events using List.reverseRecOn generalizing p with
  | nil =>
    obtain rfl := Option.some.inj h
    exact Nat.le_refl _
  | append_singleton events event ih =>
    obtain ⟨middle, hmiddle, hstep⟩ := run_snoc.mp h
    have hmove := (inv_run hmiddle).left_moves (step_eq_some_iff.mp hstep).2
    have hrest := ih hmiddle
    rw [List.countP_append]
    omega

/-- The process is not stuck once there is a reason for it to end, unless `Shutdown` waits for
a connection and its time is not over. -/
theorem Inv.live (h : Inv events p) (hended : p.ended = false)
    (hreason : p.signalled = true ∨ p.listener ≠ .serving)
    (hwait : p.main = .draining → p.busy = 0 ∨ p.expired = true) :
    ∃ event next, Event.own event = true ∧ p.step event = some next := by
  cases hmain : p.main with
  | selecting =>
    by_cases hsignal : p.signalled = true
    · exact ⟨_, _, rfl, step_eq_some_iff.mpr ⟨hended, .selectDone hmain hsignal⟩⟩
    · have hgoroutine : ((∃ err, p.listener = .served err) ∨ p.listener = .closing) →
          ∃ event next, Event.own event = true ∧ p.step event = some next := by
        intro hat
        obtain ⟨next, hnext⟩ := h.exists_goroutine hat
        exact ⟨_, _, rfl, step_eq_some_iff.mpr ⟨hended, .goroutine hnext⟩⟩
      cases hat : p.listener with
      | serving => exact absurd hat (hreason.resolve_left hsignal)
      | served err => exact hgoroutine (Or.inl ⟨err, hat⟩)
      | closing => exact hgoroutine (Or.inr hat)
      | finished =>
        have hlistener := h.listener
        rw [hat] at hlistener
        obtain ⟨⟨got, ch⟩, hreceived⟩ :=
          Option.isSome_iff_exists.mp (Chan.receive_isSome (hlistener hmain))
        exact ⟨_, _, rfl, step_eq_some_iff.mpr ⟨hended, .selectErr hmain hreceived⟩⟩
  | draining =>
    obtain hidle | hexpired := hwait hmain
    · exact ⟨.shutdown none, _, rfl, step_eq_some_iff.mpr ⟨hended, .shutdown hmain hidle⟩⟩
    · exact ⟨_, _, rfl, step_eq_some_iff.mpr ⟨hended, .expire hmain hexpired⟩⟩
  | returned err => exact ⟨_, _, rfl, step_eq_some_iff.mpr ⟨hended, .exit hmain⟩⟩
  | exited code =>
    rw [Process.ended, hmain] at hended
    cases hended

end Steps

/-! ## Every run -/

/-- What is so after a run of the process. -/
structure Settles (events : List (Event ε)) (p : Process ε) : Prop where
  calm : p.panicked = false
  unblocked : (∃ err, p.listener = .served err) ∨ p.listener = .closing →
    ∃ next, p.goroutine = some next
  returned : ∀ err, p.main = .returned err → Explains events err
  exited : ∀ code, p.main = .exited code → ∃ err, code = exitCode err ∧ Explains events err
  succeeded : p.main = .exited 0 → ∃ before after idle,
    events = before ++ .shutdown none :: after ∧ start.run before = some idle ∧
      Event.signal ∈ before ∧ idle.busy = 0
  bounded : events.countP Event.own ≤ 6
  live : p.ended = false → p.signalled = true ∨ p.listener ≠ .serving →
    (p.main = .draining → p.busy = 0 ∨ p.expired = true) →
    ∃ event next, Event.own event = true ∧ p.step event = some next

/-- Whatever the interleaving, the process ends for a reason, and with success only if it was
told to and every connection was served. -/
theorem run_settles {events : List (Event ε)} {p : Process ε} (h : start.run events = some p) :
    Settles events p := by
  have hinv := inv_run h
  have hmain := hinv.main
  constructor
  case calm => exact hinv.calm
  case unblocked => exact hinv.exists_goroutine
  case returned =>
    intro err herr
    rw [herr] at hmain
    exact hmain
  case exited =>
    intro code hcode
    rw [hcode] at hmain
    exact hmain
  case succeeded =>
    intro hzero
    rw [hzero] at hmain
    obtain ⟨err, hcode, hexplains⟩ := hmain
    cases hexplains with
    | drained before after split reached signalled idle =>
      cases err with
      | none => exact ⟨before, after, _, split, reached, signalled, idle⟩
      | some err => cases hcode
    | listenFailed served genuine => cases hcode
    | timedOut signalled timeout => cases hcode
  case bounded =>
    have hleft := left_run h
    omega
  case live => exact hinv.live

/-- A signal arrives while a connection is busy; when it is served, the process ends. -/
def drainedRun : List (Event String) :=
  [.connections 1, .signal, .selectDone, .serve .serverClosed, .goroutine, .connections 0,
    .goroutine, .shutdown none, .exit]

theorem run_settles_drained : ∃ p, start.run drainedRun = some p ∧ Settles drainedRun p := by
  have hrun : ∃ p, start.run drainedRun = some p := ⟨_, rfl⟩
  obtain ⟨p, hp⟩ := hrun
  exact ⟨p, hp, run_settles hp⟩

end BigfleetDashboard.Lifecycle
