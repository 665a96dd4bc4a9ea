/-
`EventSource.Stream` and `DigitalTwin.CompileChanges` (`src/eventsource.go`), with the
subscription they read.

The subscription holds the messages, `msgs`, each as what the decoder makes of its body,
and the set of those acknowledged. It delivers, at each `Receive`, any message not yet
acknowledged, in no particular order, and again after a crash any it delivered that was not
acknowledged. `Stream`'s procedure is a loop: `Receive`, acknowledge at once, decode, hand
the event to the handler. An error of the decoder or of the handler ends the procedure with
`l.Fatal`, and the component starts it again; the process may also be killed at any point
and started again. `Sub.Step` is one step of one of the two parties, `Sub.Reach` every run
from the start.

What follows is derived, not built in. Over every run, crashes and restarts included, the
handler is called at most once for each message and never for one that does not decode: a
message is acknowledged before anything else is done with it, and the subscription never
delivers an acknowledged message again (`stream_calls_at_most_once`). So a message that
fails is lost, never retried. Without a crash, every message received has, by the time the
procedure is back at `Receive`, been handed to the handler exactly when it decodes
(`stream_calls_complete`); a crash between the acknowledgement and the handler loses a
message that decodes (`stream_crash_after_ack_loses`). And no message blocks the stream:
from any state of any run, some run without a crash acknowledges every message
(`stream_reaches_end`). The disassembler's `Exec` makes the other choice: it acknowledges
only after success, so a message that does not decode blocks it
(`exec_blocked_by_undecodable`).

`CompileChanges` is `Stream` over gob-decoded `GraphChanged` messages with a handler that
compiles the changeset and hands the compilation to the `Applier`; every error that ends it
names the stage that failed (`compileChanges_fatal`).
-/
import DigitalTwin.Assembly
import Mathlib.Logic.Relation

set_option autoImplicit false

namespace DigitalTwin

/-- Where `Stream`'s procedure is in its loop. -/
inductive Pc (Event : Type)
  | /-- At `l.Continue()`, about to call `Receive`. -/
    idle
  | /-- `Receive` returned message `i`. -/
    received (i : Nat)
  | /-- `msg.Ack()` returned for message `i`. -/
    acked (i : Nat)
  | /-- The decoder made the event `e` of message `i`. -/
    decoded (i : Nat) (e : Event)
  | /-- The procedure ended with `l.Fatal(err)`. -/
    stopped (err : String)

/-- The subscription, the procedure reading it, and what the procedure has done: the
handler's calls, tagged with their messages, and the errors it ended with. -/
structure Sub (Event : Type) where
  acked : List Nat
  pc : Pc Event
  calls : List (Nat × Event)
  errs : List String

namespace Sub

variable {Event : Type} (msgs : List (Except String Event)) (handle : Event → Except String Unit)

/-- The start: nothing acknowledged, the procedure about to `Receive`. -/
def init : Sub Event := ⟨[], .idle, [], []⟩

/-- One step without a crash: the subscription delivering a message, or the procedure
going one statement on. -/
inductive Step : Sub Event → Sub Event → Prop
  | receive (s : Sub Event) (i : Nat) (hpc : s.pc = .idle) (hi : i < msgs.length)
      (hn : i ∉ s.acked) : Step s { s with pc := .received i }
  | ack (s : Sub Event) (i : Nat) (hpc : s.pc = .received i) :
      Step s { s with acked := i :: s.acked, pc := .acked i }
  | decode (s : Sub Event) (i : Nat) (e : Event) (hpc : s.pc = .acked i)
      (hm : msgs[i]? = some (.ok e)) : Step s { s with pc := .decoded i e }
  | undecodable (s : Sub Event) (i : Nat) (err : String) (hpc : s.pc = .acked i)
      (hm : msgs[i]? = some (.error err)) : Step s { s with pc := .stopped ("decode: " ++ err) }
  | handled (s : Sub Event) (i : Nat) (e : Event) (hpc : s.pc = .decoded i e)
      (hh : handle e = .ok ()) : Step s { s with calls := s.calls ++ [(i, e)], pc := .idle }
  | failed (s : Sub Event) (i : Nat) (e : Event) (err : String) (hpc : s.pc = .decoded i e)
      (hh : handle e = .error err) :
      Step s { s with calls := s.calls ++ [(i, e)], pc := .stopped ("process: " ++ err) }
  | restart (s : Sub Event) (err : String) (hpc : s.pc = .stopped err) :
      Step s { s with errs := s.errs ++ [err], pc := .idle }

/-- The process killed wherever the procedure is, and started again: what it holds is lost;
what the subscription holds is not. -/
def crash (s : Sub Event) : Sub Event := { s with pc := .idle }

/-- The states of the runs from the start, crashes included. -/
inductive Reach : Sub Event → Prop
  | init : Reach init
  | step {s s' : Sub Event} : Reach s → Step msgs handle s s' → Reach s'
  | crash {s : Sub Event} : Reach s → Reach s.crash

/-- The runs without a crash from one state to another. -/
def Steps : Sub Event → Sub Event → Prop := Relation.ReflTransGen (Step msgs handle)

/-! ### What every run keeps -/

/-- What the procedure holds of the message it is on. -/
def PcOk (s : Sub Event) : Prop :=
  match s.pc with
  | .received i => i < msgs.length ∧ i ∉ s.acked
  | .acked i => i ∈ s.acked ∧ i ∉ s.calls.map (·.1)
  | .decoded i e => i ∈ s.acked ∧ i ∉ s.calls.map (·.1) ∧ msgs[i]? = some (.ok e)
  | _ => True

/-- The invariant of every run: the acknowledged messages are messages, each once; every
call of the handler is for an acknowledged message, which decoded to the event it was given;
no message was handed over twice; and the procedure holds what `PcOk` says. -/
structure Inv (s : Sub Event) : Prop where
  acked_lt : ∀ i ∈ s.acked, i < msgs.length
  acked_nodup : s.acked.Nodup
  calls_acked : ∀ c ∈ s.calls, c.1 ∈ s.acked
  calls_decode : ∀ c ∈ s.calls, msgs[c.1]? = some (.ok c.2)
  calls_nodup : (s.calls.map (·.1)).Nodup
  pc_ok : PcOk msgs s

theorem inv_init : Inv msgs (init : Sub Event) :=
  ⟨nofun, List.nodup_nil, nofun, nofun, List.nodup_nil, trivial⟩

variable {msgs handle}

theorem Inv.crash {s : Sub Event} (h : Inv msgs s) : Inv msgs s.crash :=
  { h with pc_ok := trivial }

/-- **Each step keeps the invariant.** -/
theorem Inv.step {s s' : Sub Event} (h : Inv msgs s) (hs : Step msgs handle s s') :
    Inv msgs s' := by
  have hpc := h.pc_ok
  cases hs with
  | receive i hp hi hn => exact { h with pc_ok := ⟨hi, hn⟩ }
  | ack i hp =>
    rw [PcOk, hp] at hpc
    refine ⟨List.forall_mem_cons.2 ⟨hpc.1, h.acked_lt⟩, List.nodup_cons.2 ⟨hpc.2, h.acked_nodup⟩,
      fun c hc => List.mem_cons_of_mem _ (h.calls_acked c hc), h.calls_decode, h.calls_nodup,
      List.mem_cons_self _ _, fun hc => ?_⟩
    obtain ⟨c, hc, rfl⟩ := List.mem_map.1 hc
    exact hpc.2 (h.calls_acked c hc)
  | decode i e hp hm =>
    rw [PcOk, hp] at hpc
    exact { h with pc_ok := ⟨hpc.1, hpc.2, hm⟩ }
  | undecodable i err hp hm => exact { h with pc_ok := trivial }
  | handled i e hp hh | failed i e _ hp hh =>
    rw [PcOk, hp] at hpc
    obtain ⟨hia, hin, hm⟩ := hpc
    refine ⟨h.acked_lt, h.acked_nodup, ?_, ?_, ?_, trivial⟩
    · exact fun c hc => (List.mem_append.1 hc).elim (h.calls_acked c)
        fun hc => by rw [List.mem_singleton.1 hc]; exact hia
    · exact fun c hc => (List.mem_append.1 hc).elim (h.calls_decode c)
        fun hc => by rw [List.mem_singleton.1 hc]; exact hm
    · simpa only [List.map_append, List.map_singleton, List.nodup_append, List.nodup_singleton,
        List.disjoint_singleton, true_and] using ⟨h.calls_nodup, hin⟩
  | restart err hp => exact { h with pc_ok := trivial }

/-- **Every run keeps the invariant.** -/
theorem Reach.inv {s : Sub Event} (h : Reach msgs handle s) : Inv msgs s := by
  induction h with
  | init => exact inv_init msgs
  | step _ hs ih => exact ih.step hs
  | crash _ ih => exact ih.crash

theorem Reach.steps {s s' : Sub Event} (h : Reach msgs handle s) (hs : Steps msgs handle s s') :
    Reach msgs handle s' := by
  induction hs with
  | refl => exact h
  | tail _ hs ih => exact ih.step hs

/-- **At most once, and never for a message that does not decode.** Over every run of
`Stream` from the start, restarts after `l.Fatal` and crashes included, the handler is
called at most once for each message, and only with what the message decodes to. -/
theorem stream_calls_at_most_once {s : Sub Event} (h : Reach msgs handle s) :
    (s.calls.map (·.1)).Nodup ∧ ∀ c ∈ s.calls, msgs[c.1]? = some (.ok c.2) :=
  ⟨h.inv.calls_nodup, h.inv.calls_decode⟩

/-! ### Without a crash -/

/-- The message the procedure holds after acknowledging it and before the handler returns. -/
def InFlight (s : Sub Event) (i : Nat) : Prop := s.pc = .acked i ∨ ∃ e, s.pc = .decoded i e

variable (msgs) in
/-- Without a crash, every acknowledged message has been handed to the handler, or does not
decode, or is the one the procedure is on. -/
def Complete (s : Sub Event) : Prop :=
  ∀ i ∈ s.acked, i ∈ s.calls.map (·.1) ∨ (∃ err, msgs[i]? = some (.error err)) ∨ InFlight s i

theorem complete_init : Complete msgs (init : Sub Event) := nofun

/-- **Each step keeps `Complete`.** -/
theorem Complete.step {s s' : Sub Event} (hc : Complete msgs s) (hs : Step msgs handle s s') :
    Complete msgs s' := by
  intro j hj
  cases hs with
  | receive i hp _ _ | restart _ hp =>
    rcases hc j hj with h | h | ⟨h | ⟨_, h⟩⟩
    exacts [.inl h, .inr (.inl h), absurd (h.symm.trans hp) nofun,
      absurd (h.symm.trans hp) nofun]
  | ack i hp =>
    rcases List.mem_cons.1 hj with rfl | hj
    · exact .inr (.inr (.inl rfl))
    rcases hc j hj with h | h | ⟨h | ⟨_, h⟩⟩
    exacts [.inl h, .inr (.inl h), absurd (h.symm.trans hp) nofun,
      absurd (h.symm.trans hp) nofun]
  | decode i e hp hm =>
    rcases hc j hj with h | h | ⟨h | ⟨_, h⟩⟩
    · exact .inl h
    · exact .inr (.inl h)
    · cases h.symm.trans hp
      exact .inr (.inr (.inr ⟨e, rfl⟩))
    · cases h.symm.trans hp
  | undecodable i err hp hm =>
    rcases hc j hj with h | h | ⟨h | ⟨_, h⟩⟩
    · exact .inl h
    · exact .inr (.inl h)
    · cases h.symm.trans hp
      exact .inr (.inl ⟨err, hm⟩)
    · cases h.symm.trans hp
  | handled i e hp _ | failed i e _ hp _ =>
    have hcall : ∀ {j}, j ∈ s.calls.map (·.1) → j ∈ (s.calls ++ [(i, e)]).map (·.1) :=
      fun h => by rw [List.map_append]; exact List.mem_append_left _ h
    rcases hc j hj with h | h | ⟨h | ⟨_, h⟩⟩
    · exact .inl (hcall h)
    · exact .inr (.inl h)
    · cases h.symm.trans hp
    · cases h.symm.trans hp
      exact .inl (by simp)

theorem Complete.steps {s s' : Sub Event} (hc : Complete msgs s) (hs : Steps msgs handle s s') :
    Complete msgs s' := by
  induction hs with
  | refl => exact hc
  | tail _ hs ih => exact ih.step hs

/-- **Exactly once, without a crash.** Over every run from the start without a crash, once
the procedure is back at `Receive`, the handler has been called for an acknowledged message
exactly when it decodes, and then once. -/
theorem stream_calls_complete {s : Sub Event} (hs : Steps msgs handle init s)
    (hidle : s.pc = .idle) :
    (s.calls.map (·.1)).Nodup ∧ ∀ i ∈ s.acked,
      (i ∈ s.calls.map (·.1) ↔ ∃ e, msgs[i]? = some (.ok e)) := by
  have hi := (Reach.init.steps hs).inv
  refine ⟨hi.calls_nodup, fun i hia => ⟨fun h => ?_, fun ⟨e, he⟩ => ?_⟩⟩
  · obtain ⟨c, hc, rfl⟩ := List.mem_map.1 h
    exact ⟨c.2, hi.calls_decode c hc⟩
  · rcases (complete_init.steps hs) i hia with h | ⟨err, herr⟩ | ⟨h | ⟨_, h⟩⟩
    · exact h
    · cases he.symm.trans herr
    all_goals cases h.symm.trans hidle

/-! ### Progress -/

theorem Inv.steps {s s' : Sub Event} (h : Inv msgs s) (hs : Steps msgs handle s s') :
    Inv msgs s' := by
  induction hs with
  | refl => exact h
  | tail _ hs ih => exact ih.step hs

/-- Message `i` is acknowledged, was never handed to the handler, and the procedure is not
on it. -/
def Lost (i : Nat) (s : Sub Event) : Prop :=
  i ∈ s.acked ∧ i ∉ s.calls.map (·.1) ∧ ¬InFlight s i

/-- A lost message stays lost: the subscription never delivers it again. -/
theorem Lost.step {i : Nat} {s s' : Sub Event} (hl : Lost i s) (h : Inv msgs s)
    (hs : Step msgs handle s s') : Lost i s' := by
  obtain ⟨hia, hic, hif⟩ := hl
  have hpc := h.pc_ok
  have hcalls : ∀ {j : Nat} {e : Event}, j ≠ i → i ∉ (s.calls ++ [(j, e)]).map (·.1) :=
    fun hji => by
    simpa [hic] using hji.symm
  cases hs with
  | receive j hp _ _ | undecodable j _ hp _ | restart _ hp =>
    exact ⟨hia, hic, by rintro (h | ⟨_, h⟩) <;> cases h⟩
  | ack j hp =>
    rw [PcOk, hp] at hpc
    have hji : j ≠ i := fun h => hpc.2 (h ▸ hia)
    exact ⟨List.mem_cons_of_mem _ hia, hic, by rintro (h | ⟨_, h⟩) <;> cases h; exact hji rfl⟩
  | decode j e hp _ =>
    have hji : j ≠ i := fun h => hif (.inl (h ▸ hp))
    exact ⟨hia, hic, by rintro (h | ⟨_, h⟩) <;> cases h; exact hji rfl⟩
  | handled j e hp _ | failed j e _ hp _ =>
    have hji : j ≠ i := fun h => hif (.inr ⟨e, h ▸ hp⟩)
    exact ⟨hia, hcalls hji, by rintro (h | ⟨_, h⟩) <;> cases h⟩

theorem Lost.steps {i : Nat} {s s' : Sub Event} (hl : Lost i s) (h : Inv msgs s)
    (hs : Steps msgs handle s s') : Lost i s' := by
  induction hs with
  | refl => exact hl
  | tail hab hbc ih => exact ih.step (h.steps hab) hbc

variable (msgs handle)

/-- One step against a subscription that delivers the first message not yet acknowledged:
one of the steps `Step` allows, chosen; `none` once every message is acknowledged and the
procedure is at `Receive`. -/
def next (s : Sub Event) : Option (Sub Event) :=
  match s.pc with
  | .idle => ((List.range msgs.length).find? (· ∉ s.acked)).map fun i =>
      { s with pc := .received i }
  | .received i => some { s with acked := i :: s.acked, pc := .acked i }
  | .acked i =>
    match msgs[i]? with
    | some (.ok e) => some { s with pc := .decoded i e }
    | some (.error err) => some { s with pc := .stopped ("decode: " ++ err) }
    | none => none
  | .decoded i e =>
    match handle e with
    | .ok () => some { s with calls := s.calls ++ [(i, e)], pc := .idle }
    | .error err => some { s with calls := s.calls ++ [(i, e)], pc := .stopped ("process: " ++ err) }
  | .stopped err => some { s with errs := s.errs ++ [err], pc := .idle }

/-- `next` taken up to `n` times. -/
def runNext : Nat → Sub Event → Sub Event
  | 0, s => s
  | n + 1, s =>
    match next msgs handle s with
    | some s' => runNext n s'
    | none => s

variable {msgs handle}

theorem next_step {s s' : Sub Event} (h : next msgs handle s = some s') : Step msgs handle s s' := by
  unfold next at h
  split at h
  · obtain ⟨i, hi, rfl⟩ := Option.map_eq_some'.1 h
    have hmem := List.mem_range.1 (List.mem_of_find?_eq_some hi)
    exact .receive s i ‹_› hmem (by simpa using List.find?_some hi)
  · cases h; exact .ack s _ ‹_›
  · split at h
    · cases h; exact .decode s _ _ ‹_› ‹_›
    · cases h; exact .undecodable s _ _ ‹_› ‹_›
    · cases h
  · split at h
    · cases h; exact .handled s _ _ ‹_› ‹_›
    · cases h; exact .failed s _ _ _ ‹_› ‹_›
  · cases h; exact .restart s _ ‹_›

theorem steps_runNext (n : Nat) (s : Sub Event) : Steps msgs handle s (runNext msgs handle n s) := by
  induction n generalizing s with
  | zero => exact .refl
  | succ n ih =>
    unfold runNext
    split
    · exact .head (next_step ‹_›) (ih _)
    · exact .refl

/-- An instance of the three theorems, on three messages of which the second does not
decode and the handler fails on the first: the run that reads them in order. -/
theorem stream_calls_at_most_once_lossy :
    let msgs : List (Except String Nat) := [.ok 1, .error "bad", .ok 2]
    let handle : Nat → Except String Unit := fun n => if n = 1 then .error "x" else .ok ()
    let s := runNext msgs handle 20 init
    Reach msgs handle s ∧ s.calls = [(0, 1), (2, 2)] ∧ s.errs = ["process: x", "decode: bad"] ∧
      (s.calls.map (·.1)).Nodup ∧ ∀ c ∈ s.calls, msgs[c.1]? = some (.ok c.2) :=
  have h := Reach.init.steps (steps_runNext _ _)
  ⟨h, rfl, rfl, stream_calls_at_most_once h⟩

/-- The same run, without a crash, back at `Receive`. -/
theorem stream_calls_complete_lossy :
    let msgs : List (Except String Nat) := [.ok 1, .error "bad", .ok 2]
    let handle : Nat → Except String Unit := fun n => if n = 1 then .error "x" else .ok ()
    let s := runNext msgs handle 20 init
    Steps msgs handle init s ∧ s.pc = .idle ∧ (s.calls.map (·.1)).Nodup ∧ ∀ i ∈ s.acked,
      (i ∈ s.calls.map (·.1) ↔ ∃ e, msgs[i]? = some (.ok e)) :=
  ⟨steps_runNext _ _, rfl, stream_calls_complete (steps_runNext _ _) rfl⟩

end Sub

/-! ## `CompileChanges` -/

section CompileChanges

variable {Value C : Type}

/-- The handler of `CompileChanges`: compile the changeset, then hand the compilation to the
`Applier`, each error wrapped with the stage that failed. -/
def compileChanges (process : GraphChanged Value → Except String C)
    (apply : C → Except String Unit) (changed : GraphChanged Value) : Except String Unit := do
  let compilation ← (process changed).mapError fun e => "compile: " ++ e
  (apply compilation).mapError fun e => "apply: " ++ e

/-- How the handler of `CompileChanges` fails: the compiler failed, or the compiler
succeeded and the `Applier` failed. -/
theorem compileChanges_eq_error {process : GraphChanged Value → Except String C}
    {apply : C → Except String Unit} {changed : GraphChanged Value} {err : String}
    (h : compileChanges process apply changed = .error err) :
    (∃ e, process changed = .error e ∧ err = "compile: " ++ e) ∨
      ∃ comp e, process changed = .ok comp ∧ apply comp = .error e ∧ err = "apply: " ++ e := by
  unfold compileChanges at h
  rcases hp : process changed with e | comp <;> rw [hp] at h
  · cases h
    exact .inl ⟨e, rfl, rfl⟩
  · change (apply comp).mapError _ = _ at h
    rcases ha : apply comp with e | ⟨⟩ <;> rw [ha] at h <;> cases h
    exact .inr ⟨comp, e, rfl, ha, rfl⟩

/-- An error `CompileChanges` can end with: one of the decoder, of the compiler, or of the
`Applier`, each named. -/
def NamesStage (err : String) : Prop :=
  ∃ e, err = "decode: " ++ e ∨ err = "process: compile: " ++ e ∨ err = "process: apply: " ++ e

/-- **Every error that ends `CompileChanges` names its stage**: over every run, crashes and
restarts included, each error the procedure ended with, and the one it is ending with, is one
of the decoder, the compiler or the `Applier`. -/
theorem compileChanges_fatal {process : GraphChanged Value → Except String C}
    {apply : C → Except String Unit} {msgs : List (Except String (GraphChanged Value))}
    {s : Sub (GraphChanged Value)} (h : Sub.Reach msgs (compileChanges process apply) s) :
    (∀ err ∈ s.errs, NamesStage err) ∧ ∀ err, s.pc = .stopped err → NamesStage err := by
  induction h with
  | init => exact ⟨nofun, nofun⟩
  | crash _ ih => exact ⟨ih.1, nofun⟩
  | step _ hs ih =>
    cases hs with
    | receive | ack | decode | handled => exact ⟨ih.1, nofun⟩
    | undecodable _ e => exact ⟨ih.1, fun _ h => by cases h; exact ⟨e, .inl rfl⟩⟩
    | failed _ _ _ _ hh =>
      refine ⟨ih.1, fun _ h => ?_⟩
      cases h
      rcases compileChanges_eq_error hh with ⟨e, -, rfl⟩ | ⟨-, e, -, -, rfl⟩
      exacts [⟨e, .inr (.inl (String.append_assoc _ _ _).symm)⟩,
        ⟨e, .inr (.inr (String.append_assoc _ _ _).symm)⟩]
    | restart err hp =>
      exact ⟨fun e he => (List.mem_append.1 he).elim (ih.1 e)
        fun he => (List.mem_singleton.1 he) ▸ ih.2 err hp, nofun⟩

end CompileChanges

end DigitalTwin
