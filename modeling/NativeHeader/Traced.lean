import NativeHeader.Event

/-!
# Computations that leave a trace

A `Traced` computation gives a value or a fault, and lists what it did on the way: what it reported,
what it wrote, and how it called the formatter.  A fault ends the computation, and what was done
before it stays done.
-/

namespace NativeHeader

/-- A call of the formatter: the command and the bytes of its standard input. -/
structure FormatterCall where
  command : List String
  input : List UInt8
  deriving DecidableEq

/-- Something that can be seen from outside. -/
inductive Action where
  /-- A report. -/
  | report (event : Event)
  /-- A text on the standard output. -/
  | write (text : String)
  /-- A call of the formatter. -/
  | format (call : FormatterCall)
  deriving DecidableEq

namespace Action

/-- The event that an action reports. -/
def event? : Action → Option Event
  | report event => some event
  | _ => none

/-- The text that an action writes. -/
def written? : Action → Option String
  | write text => some text
  | _ => none

/-- The call that an action makes. -/
def call? : Action → Option FormatterCall
  | format call => some call
  | _ => none

end Action

/-- A value or a fault, with what was done on the way. -/
structure Traced (α : Type) where
  actions : List Action
  result : Except Fault α

namespace Traced

variable {α β : Type}

/-- Goes on with the value; after a fault nothing more is done. -/
def andThen (first : Traced α) (next : α → Traced β) : Traced β :=
  match first.result with
  | .ok value => { actions := first.actions ++ (next value).actions, result := (next value).result }
  | .error fault => { actions := first.actions, result := .error fault }

instance : Monad Traced where
  pure value := { actions := [], result := .ok value }
  bind := andThen

theorem andThen_of_ok {first : Traced α} {value : α} (h : first.result = .ok value)
    (next : α → Traced β) :
    first >>= next =
      { actions := first.actions ++ (next value).actions, result := (next value).result } := by
  show andThen first next = _
  rw [andThen, h]

theorem andThen_of_error {first : Traced α} {fault : Fault} (h : first.result = .error fault)
    (next : α → Traced β) :
    first >>= next = { actions := first.actions, result := .error fault } := by
  show andThen first next = _
  rw [andThen, h]

theorem map_id (t : Traced α) : id <$> t = t := by
  obtain ⟨actions, result⟩ := t
  cases result with
  | error fault => rfl
  | ok value =>
    show andThen _ _ = _
    simp [andThen]

theorem pure_andThen (value : α) (next : α → Traced β) : pure value >>= next = next value := by
  rw [andThen_of_ok (show (pure value : Traced α).result = .ok value from rfl)]
  rfl

theorem andThen_assoc {γ : Type} (t : Traced α) (f : α → Traced β) (g : β → Traced γ) :
    t >>= f >>= g = t >>= fun value => f value >>= g := by
  cases h : t.result with
  | error fault =>
    rw [andThen_of_error h, andThen_of_error h]
    rfl
  | ok value =>
    rw [andThen_of_ok h, andThen_of_ok h]
    cases h' : (f value).result with
    | error fault =>
      rw [andThen_of_error h']
      rfl
    | ok next =>
      rw [andThen_of_ok h']
      show Traced.mk (t.actions ++ (f value).actions ++ (g next).actions) (g next).result = _
      rw [List.append_assoc]

instance : LawfulMonad Traced := LawfulMonad.mk' Traced map_id pure_andThen andThen_assoc

/-- One action. -/
def act (action : Action) : Traced Unit := { actions := [action], result := .ok () }

/-- Reports an event. -/
def report (event : Event) : Traced Unit := act (.report event)

/-- A computation that does nothing to be seen. -/
def of (result : Except Fault α) : Traced α := { actions := [], result }

/-- The reports, in order. -/
def log (t : Traced α) : List Event := t.actions.filterMap Action.event?

/-- The text on the standard output. -/
def output (t : Traced α) : String := String.join (t.actions.filterMap Action.written?)

/-- The calls of the formatter, in order. -/
def calls (t : Traced α) : List FormatterCall := t.actions.filterMap Action.call?

@[simp] theorem result_pure (value : α) : (pure value : Traced α).result = .ok value := rfl

@[simp] theorem result_of (result : Except Fault α) : (of result).result = result := rfl

@[simp] theorem result_report (event : Event) : (report event).result = .ok () := rfl

@[simp] theorem result_bind (t : Traced α) (next : α → Traced β) :
    (t >>= next).result = t.result >>= fun value => (next value).result := by
  cases h : t.result with
  | error fault =>
    rw [andThen_of_error h]
    rfl
  | ok value =>
    rw [andThen_of_ok h]
    rfl

theorem result_mapM (f : α → Traced β) (xs : List α) :
    (xs.mapM f).result = xs.mapM fun x => (f x).result := by
  induction xs with
  | nil => rfl
  | cons x rest ih => simp only [List.mapM_cons, result_bind, ih, result_pure]; rfl

end Traced

end NativeHeader
