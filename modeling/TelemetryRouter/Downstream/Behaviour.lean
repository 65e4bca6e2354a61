import TelemetryRouter.Error

/-!
# How backends behave

The exporters of an address follow a script: how long each kind of call takes, whether it fails afterwards, and with which error.
A number of failures is used up by the calls that fail, whichever exporter of the address they reach.
-/

namespace TelemetryRouter

/-- Whether calls fail: so many of them, or all. -/
inductive Failure where
  | times (n : Nat)
  | always
  deriving DecidableEq, Repr

namespace Failure

/-- No failure. -/
def never : Failure := .times 0

/-- Whether the next call fails. -/
def strikes : Failure → Bool
  | .times n => n != 0
  | .always => true

/-- What is left after a call that failed. -/
def spend : Failure → Failure
  | .times n => .times (n - 1)
  | .always => .always

end Failure

/-- The kinds of call an exporter or its maker receives. -/
inductive CallKind where
  | create
  | start
  | deliver
  | stop
  deriving DecidableEq, Repr

/-- The script of one kind of call: milliseconds taken, failures, and the error of a failure if it is not the usual one. -/
structure CallScript where
  delay : Nat
  failure : Failure
  error : Option RouterError
  deriving DecidableEq, Repr

/-- A call that takes no time and succeeds. -/
def CallScript.smooth : CallScript := ⟨0, .never, none⟩

/-- The script of an address. A plain exporter has nothing to do when it is started or stopped, and takes every batch at once. -/
structure Behaviour where
  create : CallScript
  start : CallScript
  deliver : CallScript
  stop : CallScript
  plain : Bool
  deriving DecidableEq, Repr

namespace Behaviour

/-- Every call takes no time and succeeds. -/
def smooth : Behaviour := ⟨.smooth, .smooth, .smooth, .smooth, false⟩

/-- The script of one kind of call. -/
def call (b : Behaviour) : CallKind → CallScript
  | .create => b.create
  | .start => b.start
  | .deliver => b.deliver
  | .stop => b.stop

/-- The behaviour with another script for one kind of call. -/
def withCall (b : Behaviour) (s : CallScript) : CallKind → Behaviour
  | .create => { b with create := s }
  | .start => { b with start := s }
  | .deliver => { b with deliver := s }
  | .stop => { b with stop := s }

/-- The usual error of a failing call. -/
def usualError (address : String) : CallKind → RouterError
  | .create => .exportFailed (address ++ " cannot be created")
  | .start => .exportFailed (address ++ " refused to start")
  | .deliver => .exportFailed (address ++ " rejected the batch")
  | .stop => .exportFailed (address ++ " refused to stop")

end Behaviour

/-- The behaviours of all addresses; an address that is not listed behaves smoothly. -/
structure Backends where
  behaviours : List (String × Behaviour)
  deriving DecidableEq, Repr

namespace Backends

/-- The behaviour of an address. -/
def behaviour (b : Backends) (address : String) : Behaviour := (b.behaviours.lookup address).getD .smooth

/-- Replaces the behaviour of an address. -/
def set (b : Backends) (address : String) (behaviour : Behaviour) : Backends :=
  ⟨(address, behaviour) :: b.behaviours.filter (fun p => p.1 != address)⟩

/-- The milliseconds that a call to an address takes. -/
def delay (b : Backends) (address : String) (kind : CallKind) : Nat := ((b.behaviour address).call kind).delay

/-- The end of a call to an address: its result, and the failures left. -/
def conclude (b : Backends) (address : String) (kind : CallKind) : Except RouterError Unit × Backends :=
  let behaviour := b.behaviour address
  let script := behaviour.call kind
  if script.failure.strikes then
    (.error (script.error.getD (Behaviour.usualError address kind)),
      b.set address (behaviour.withCall { script with failure := script.failure.spend } kind))
  else (.ok (), b)

end Backends

end TelemetryRouter
