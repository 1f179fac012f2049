import WeisleyRpc.Message
import WeisleyRpc.OrderedMap

/-!
# Services and their invocation

`service-registry.ts` and `method-invoker.ts`. A request's fields have no checked type,
so whatever JavaScript makes of a service name, a method name or a parameter list is
part of the model. A method itself is code of the user: it takes its parameters, and how
it ends comes from outside.
-/

/-- The code under which a failed call is reported. -/
def Thrown.code : Thrown → JsValue
  | .error (.rpcError _ code) => code
  | .error (.native _ _ _ _) | .value _ => .string "INTERNAL_ERROR"

namespace WeisleyRpc

/-- An implementation as `service[methodName]` sees it: which properties it has of its
own, and which the prototypes of its classes have, the nearest first, each with whether
it holds a function. -/
structure ServiceImplementation where
  own : List (String × Bool)
  classes : List (List (String × Bool))

/-- Where `service[methodName]` found a function. -/
inductive MethodOwner
  | own
  | prototype (depth : ℕ)
  | objectPrototype
  deriving DecidableEq, Repr

/-- The functions that every object inherits. -/
def objectPrototypeMethods : List String :=
  ["constructor", "__defineGetter__", "__defineSetter__", "hasOwnProperty", "__lookupGetter__",
    "__lookupSetter__", "isPrototypeOf", "propertyIsEnumerable", "toString", "valueOf",
    "toLocaleString"]

namespace ServiceImplementation

def inherited (name : String) (depth : ℕ) : List (List (String × Bool)) → Option MethodOwner
  | [] => if name ∈ objectPrototypeMethods then some .objectPrototype else none
  | properties :: classes =>
    match properties.lookup name with
    | some isFunction => if isFunction then some (.prototype depth) else none
    | none => inherited name (depth + 1) classes

/-- The owner of `service[methodName]`, when that is a function. -/
def functionOwner (service : ServiceImplementation) (name : String) : Option MethodOwner :=
  match service.own.lookup name with
  | some isFunction => if isFunction then some .own else none
  | none => inherited name 0 service.classes

end ServiceImplementation

/-- A method bound to the service it was found in. -/
structure Method where
  service : String
  name : String
  owner : MethodOwner
  deriving DecidableEq, Repr

structure ServiceRegistry where
  services : OrderedMap String ServiceImplementation

namespace ServiceRegistry

def register (registry : ServiceRegistry) (serviceName : String)
    (implementation : ServiceImplementation) : ServiceRegistry :=
  ⟨registry.services.set serviceName implementation⟩

/-- Only a string is a key of the map. -/
def find (registry : ServiceRegistry) : JsValue → Option (String × ServiceImplementation)
  | .string serviceName =>
    (registry.services.get serviceName).map fun service => (serviceName, service)
  | _ => none

def getMethod (registry : ServiceRegistry) (serviceName methodName : JsValue) :
    Except JsError Method :=
  match registry.find serviceName with
  | none => do throw (← serviceNotFoundError serviceName)
  | some (service, implementation) => do
    let name ← methodName.toText
    match implementation.functionOwner name with
    | some owner => return ⟨service, name, owner⟩
    | none => throw (← methodNotFoundError serviceName methodName)

end ServiceRegistry

/-- `...params`. -/
def spread : JsValue → Except JsError (List JsValue)
  | .array items => .ok items
  | .string s => .ok (s.toList.map fun c => .string c.toString)
  | _ => .error (.typeError "Spread syntax requires ...iterable[Symbol.iterator] to be a function")

/-- A call of a method. -/
structure Call where
  method : Method
  params : List JsValue
  deriving DecidableEq, Repr

namespace MethodInvoker

/-- `invoke` up to the call of the method. -/
def call (registry : ServiceRegistry) (request : JsValue) : Except JsError Call := do
  let method ← registry.getMethod (request.prop "service") (request.prop "method")
  let params ← spread (request.prop "params")
  return ⟨method, params⟩

def toRpcError : Thrown → Except JsError JsValue
  | .error (.rpcError message code) =>
    .ok (.object [("code", code), ("message", .string message)])
  | .error (.native _ message stack _) =>
    .ok (.object ([("code", .string "INTERNAL_ERROR"), ("message", .string message)] ++
      match stack with
      | none => []
      | some text => if text = "" then [] else [("stack", .string text)]))
  | .value v => do
    let text ← v.toText
    return .object [("code", .string "INTERNAL_ERROR"), ("message", .string text)]

/-- What is thrown or returned inside the `try`, when the method that was called has
ended with `returned`. -/
def outcome (called : Except JsError Call) (returned : Except Thrown JsValue) :
    Except Thrown JsValue :=
  match called with
  | .error e => .error (.error e)
  | .ok _ => returned

/-- The response that `invoke` returns. An exception of `toRpcError` leaves it. -/
def response (request : JsValue) : Except Thrown JsValue → Except JsError JsValue
  | .ok result => .ok (successResponse request result)
  | .error thrown => do
    let error ← toRpcError thrown
    return failureResponse request error

/-- A call is the method that the request names, with its parameters. -/
theorem call_eq_ok {registry : ServiceRegistry} {request : JsValue} {c : Call}
    (h : call registry request = .ok c) :
    request.prop "service" = .string c.method.service ∧
      (request.prop "method").toText = .ok c.method.name ∧
      spread (request.prop "params") = .ok c.params := by
  simp only [call, Except.bind_eq_ok_iff] at h
  obtain ⟨method, hm, params, hp, h⟩ := h
  obtain rfl := Except.ok.inj h
  unfold ServiceRegistry.getMethod at hm
  split at hm
  · obtain ⟨e, -, he⟩ := Except.bind_eq_ok_iff.mp hm
    cases he
  · rename_i service implementation hfind
    obtain ⟨name, hn, hm⟩ := Except.bind_eq_ok_iff.mp hm
    split at hm
    · obtain rfl := Except.ok.inj hm
      refine ⟨?_, hn, hp⟩
      unfold ServiceRegistry.find at hfind
      split at hfind
      · rename_i serviceName hs
        obtain ⟨_, -, he⟩ := Option.map_eq_some_iff.mp hfind
        rw [hs, (Prod.mk.inj he).1]
      · cases hfind
    · obtain ⟨e, -, he⟩ := Except.bind_eq_ok_iff.mp hm
      cases he

theorem toRpcError_eq_ok {thrown : Thrown} {error : JsValue} (h : toRpcError thrown = .ok error) :
    ∃ fields, error = .object fields ∧ error.prop "toJSON" = .undefined ∧
      error.prop "code" = thrown.code := by
  match thrown with
  | .error (.rpcError message code) =>
    obtain rfl := Except.ok.inj h
    exact ⟨_, rfl, rfl, rfl⟩
  | .error (.native name message stack code) =>
    obtain rfl := Except.ok.inj h
    refine ⟨_, rfl, ?_, rfl⟩
    cases stack with
    | none => rfl
    | some text =>
      dsimp only
      split_ifs <;> rfl
  | .value v =>
    obtain ⟨text, -, he⟩ := Except.bind_eq_ok_iff.mp h
    obtain rfl := Except.ok.inj he
    exact ⟨_, rfl, rfl, rfl⟩

end MethodInvoker

end WeisleyRpc
