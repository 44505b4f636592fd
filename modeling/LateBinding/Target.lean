import LateBinding.Heap
import LateBinding.Registry

/-!
# Targets

A resolved member is a target: a method, a hook for missing members together with the name
that was missing, or a property by its getter, its setter or its field. A target turns the
arguments of a call into a `Request`: code to run, or a field to read or write. A request is
carried out by `Request.enter`, up to the point where a body of the embedding program has to
run; running it is left to the program.
-/

namespace LateBinding

/-- What a member resolved to. -/
inductive Target (β : Type)
  | method (m : Method β)
  | methodMissing (name : String) (hook : Hook β)
  | propertyMissing (name : String) (hook : Hook β)
  | getter (hook : Hook β)
  | setter (hook : Hook β)
  | readField (name : String)
  | writeField (name : String)

/-- What a target asks of the program for one call. -/
inductive Request (β : Type)
  /-- Run code under a name with arguments; its value is the answer. -/
  | run (code : Code β) (name : String) (args : List Value)
  /-- Run a body for its effect; the written value is the answer. -/
  | assign (body : β) (name : String) (value : Value)
  /-- Read a field of the receiver. -/
  | readField (name : String)
  /-- Write a field of the receiver; the written value is the answer. -/
  | writeField (name : String) (value : Value)

namespace Target

variable {β : Type}

/-- The two targets are one and the same definition, or the same field. -/
def same : Target β → Target β → Bool
  | method a, method b => a.serial = b.serial
  | methodMissing _ a, methodMissing _ b => a.serial = b.serial
  | propertyMissing _ a, propertyMissing _ b => a.serial = b.serial
  | getter a, getter b => a.serial = b.serial
  | setter a, setter b => a.serial = b.serial
  | readField a, readField b => a = b
  | writeField a, writeField b => a = b
  | _, _ => false

/-- Whether a missing-member hook answers for the member. -/
def isForwarding : Target β → Bool
  | methodMissing .. | propertyMissing .. => true
  | _ => false

def method? : Target β → Option (Method β)
  | method m => some m
  | _ => none

def describe (h : Hierarchy) : Target β → String
  | method m => m.signature.describe h
  | methodMissing name _ => "methodMissing(" ++ name ++ ")"
  | propertyMissing name _ => "propertyMissing(" ++ name ++ ")"
  | getter _ => "getter"
  | setter _ => "setter"
  | readField name => "field " ++ name
  | writeField name => "field " ++ name ++ "="

/-- The single value of a property write. -/
def writtenValue : List Value → Except Fault Value
  | [v] => .ok v
  | args => .error (.writtenValues args.length)

/-- What the target asks for when it is called with the given arguments. Getters run under
the name `get`, setters under `set`, and a hook for missing properties sees no more than one
argument. -/
def request (t : Target β) (args : List Value) : Except Fault (Request β) :=
  match t with
  | method m =>
    match m.signature.arguments args with
    | .error f => .error f
    | .ok args => .ok (.run m.code m.signature.name args)
  | methodMissing name hook => .ok (.run (.body hook.body) name args)
  | propertyMissing name hook => .ok (.run (.body hook.body) name (args.take 1))
  | getter hook => .ok (.run (.body hook.body) "get" [])
  | setter hook =>
    match writtenValue args with
    | .error f => .error f
    | .ok v => .ok (.assign hook.body "set" v)
  | readField name => .ok (.readField name)
  | writeField name =>
    match writtenValue args with
    | .error f => .error f
    | .ok v => .ok (.writeField name v)

end Target

/-! ### Carrying out requests -/

/-- What a call comes to before any body runs. -/
inductive Entered (β : Type)
  /-- The call is over; the objects may have changed. -/
  | finished (result : Except Fault Value) (heap : Heap)
  /-- A body is to run under a name with arguments. If a value is `written`, it is the result
  unless the body fails. -/
  | running (body : β) (name : String) (args : List Value) (written : Option Value)

variable {β : Type}

/-- Carry out a request for a receiver as far as no body has to run. -/
def Request.enter (req : Request β) (receiver : Value) (heap : Heap) : Entered β :=
  match req with
  | .run (.body b) name args => .running b name args none
  | .run (.builtin op) _ args => .finished (op.run receiver args) heap
  | .assign b name v => .running b name [v] (some v)
  | .readField name =>
    match receiver.asObject? with
    | some o => .finished (.ok ((heap.field? o name).getD .nil)) heap
    | none => .finished (.error (.readOfNonObject name receiver.kindName)) heap
  | .writeField name v =>
    match receiver.asObject? with
    | some o => .finished (.ok v) (heap.setField o name v)
    | none => .finished (.error (.writeOfNonObject name receiver.kindName)) heap

/-- Call a target as far as no body has to run. -/
def Target.enter (t : Target β) (receiver : Value) (args : List Value) (heap : Heap) :
    Entered β :=
  match t.request args with
  | .error f => .finished (.error f) heap
  | .ok req => req.enter receiver heap

end LateBinding
