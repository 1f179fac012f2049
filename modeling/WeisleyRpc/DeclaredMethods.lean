import WeisleyRpc.MethodInvoker

/-!
# Which functions a request can call

`getMethod` reads `service[methodName]`, so the language's prototype chain is searched up
to `Object.prototype`: what every object inherits is found as well as what the
implementation or its classes declare.
-/

namespace WeisleyRpc

namespace ServiceImplementation

/-- The value under this name in the nearest of the classes' prototypes that has one, by
whether it is a function. -/
def classProperty (service : ServiceImplementation) (name : String) : Option Bool :=
  service.classes.findSome? fun properties => properties.lookup name

/-- The implementation itself or one of its classes declares a function of this name. The
`constructor` of a class's prototype is the class. -/
def Declares (service : ServiceImplementation) (name : String) : Prop :=
  match service.own.lookup name with
  | some isFunction => isFunction = true
  | none => service.classProperty name = some true ∧ name ≠ "constructor"

/-- The search does not come to a function of `Object.prototype` or to a class. -/
def EndsEarly (service : ServiceImplementation) (name : String) : Prop :=
  match service.own.lookup name with
  | some _ => True
  | none =>
    match service.classProperty name with
    | some isFunction => isFunction = true → name ≠ "constructor"
    | none => name ∉ objectPrototypeMethods

instance (service : ServiceImplementation) (name : String) : Decidable (service.Declares name) := by
  unfold Declares
  split <;> infer_instance

instance (service : ServiceImplementation) (name : String) :
    Decidable (service.EndsEarly name) := by
  unfold EndsEarly
  split
  · infer_instance
  · split <;> infer_instance

theorem inherited_isSome_iff (name : String) (depth : ℕ) (classes : List (List (String × Bool))) :
    (inherited name depth classes).isSome = true ↔
      match classes.findSome? fun properties => properties.lookup name with
      | some isFunction => isFunction = true
      | none => name ∈ objectPrototypeMethods := by
  induction classes generalizing depth with
  | nil =>
    simp only [inherited, List.findSome?_nil]
    split_ifs with hmem <;> simp [hmem]
  | cons properties classes ih =>
    cases hl : properties.lookup name with
    | some isFunction => cases isFunction <;> simp [inherited, hl]
    | none =>
      simp only [inherited, hl, List.findSome?_cons]
      exact ih (depth + 1)

theorem functionOwner_isSome_iff (service : ServiceImplementation) (name : String) :
    (service.functionOwner name).isSome = true ↔
      match service.own.lookup name with
      | some isFunction => isFunction = true
      | none =>
        match service.classProperty name with
        | some isFunction => isFunction = true
        | none => name ∈ objectPrototypeMethods := by
  unfold functionOwner classProperty
  cases hown : service.own.lookup name with
  | some isFunction => cases isFunction <;> simp
  | none => exact inherited_isSome_iff name 0 service.classes

theorem declares_iff_of_found {service : ServiceImplementation} {name : String}
    (h : (service.functionOwner name).isSome = true) :
    service.Declares name ↔ service.EndsEarly name := by
  rw [functionOwner_isSome_iff] at h
  unfold Declares EndsEarly
  cases hown : service.own.lookup name with
  | some isFunction =>
    rw [hown] at h
    simpa using h
  | none =>
    rw [hown] at h
    cases hclass : service.classProperty name with
    | some isFunction =>
      simp only [hclass] at h
      simp [h]
    | none =>
      simp only [hclass] at h
      simp [h]

theorem endsEarly_of_missing {service : ServiceImplementation} {name : String}
    (h : service.functionOwner name = none) : service.EndsEarly name := by
  have hnone : ¬ (service.functionOwner name).isSome = true := by simp [h]
  rw [functionOwner_isSome_iff] at hnone
  unfold EndsEarly
  cases hown : service.own.lookup name with
  | some isFunction => trivial
  | none =>
    rw [hown] at hnone
    cases hclass : service.classProperty name with
    | some isFunction =>
      simp only [hclass] at hnone
      simp [hnone]
    | none =>
      simp only [hclass] at hnone
      simpa using hnone

end ServiceImplementation

/-- A request that names a method of a registered service. -/
structure Names (registry : ServiceRegistry) (request : JsValue) (service : String)
    (implementation : ServiceImplementation) (name : String) : Prop where
  registered : registry.services.get service = some implementation
  service_eq : request.prop "service" = .string service
  method_eq : request.prop "method" = .string name

/-- The response that the method was not found. -/
def RefusedAsMissing (response : JsValue) : Prop :=
  response.prop "ok" = .boolean false ∧
    (response.prop "error").prop "code" = .string "METHOD_NOT_FOUND"

/-- A function is run only if it is declared; a request for another name calls nothing and
is answered that the method was not found. -/
def RunsOnlyDeclared (registry : ServiceRegistry) (request : JsValue)
    (implementation : ServiceImplementation) (name : String) : Prop :=
  (∀ c, MethodInvoker.call registry request = .ok c → implementation.Declares name) ∧
    (¬ implementation.Declares name →
      ∃ e, MethodInvoker.call registry request = .error e ∧
        ∀ returned, ∃ response, MethodInvoker.response request
          (MethodInvoker.outcome (MethodInvoker.call registry request) returned) = .ok response ∧
          RefusedAsMissing response)

namespace MethodInvoker
variable {registry : ServiceRegistry} {request : JsValue} {service name : String}
  {implementation : ServiceImplementation}

theorem getMethod_of_missing (h : Names registry request service implementation name)
    (hmissing : implementation.functionOwner name = none) :
    call registry request =
      .error (rpcError s!"Method not found: {service}.{name}" "METHOD_NOT_FOUND") := by
  unfold call ServiceRegistry.getMethod ServiceRegistry.find
  rw [h.service_eq, h.method_eq]
  simp only [h.registered, Option.map_some, JsValue.toText_string, hmissing, methodNotFoundError,
    bind, Except.bind, pure, Except.pure, throw, throwThe, MonadExceptOf.throw]

theorem getMethod_of_found {owner : MethodOwner}
    (h : Names registry request service implementation name)
    (hfound : implementation.functionOwner name = some owner) :
    call registry request =
      (spread (request.prop "params")).map fun params => ⟨⟨service, name, owner⟩, params⟩ := by
  unfold call ServiceRegistry.getMethod ServiceRegistry.find
  rw [h.service_eq, h.method_eq]
  simp only [h.registered, Option.map_some, JsValue.toText_string, hfound, bind, Except.bind, pure,
    Except.pure]
  cases spread (request.prop "params") <;> rfl

theorem refused_of_missing (h : Names registry request service implementation name)
    (hmissing : implementation.functionOwner name = none) :
    RunsOnlyDeclared registry request implementation name := by
  have hcall := getMethod_of_missing h hmissing
  refine ⟨?_, ?_⟩
  · intro c hc
    rw [hcall] at hc
    cases hc
  · intro _
    refine ⟨_, hcall, ?_⟩
    intro returned
    rw [hcall]
    exact ⟨_, rfl, rfl, rfl⟩

theorem spread_eq_error {v : JsValue} {e : JsError} (h : spread v = .error e) :
    Thrown.code (.error e) = .string "INTERNAL_ERROR" := by
  cases v <;> cases h <;> rfl

theorem not_runsOnlyDeclared {owner : MethodOwner}
    (h : Names registry request service implementation name)
    (hfound : implementation.functionOwner name = some owner)
    (hnot : ¬ implementation.Declares name) :
    ¬ RunsOnlyDeclared registry request implementation name := by
  rintro ⟨honly, hrefused⟩
  have hcall := getMethod_of_found h hfound
  cases hparams : spread (request.prop "params") with
  | ok params =>
    rw [hparams] at hcall
    exact hnot (honly _ hcall)
  | error e =>
    rw [hparams] at hcall
    obtain ⟨_, -, hall⟩ := hrefused hnot
    obtain ⟨response, hr, -, hmissing⟩ := hall (.ok .undefined)
    rw [hcall] at hr
    obtain ⟨error, he, hr⟩ := Except.bind_eq_ok_iff.mp hr
    obtain rfl := Except.ok.inj hr
    obtain ⟨_, -, -, hcode⟩ := toRpcError_eq_ok he
    rw [spread_eq_error hparams] at hcode
    have hconflict := hcode.symm.trans hmissing
    simp at hconflict

end MethodInvoker

/-- A request for a method of a registered service runs only declared functions, and is told
when there is none, exactly when the search for the name ends before `Object.prototype`. -/
theorem runs_only_declared_iff (registry : ServiceRegistry) (request : JsValue)
    (service : String) (implementation : ServiceImplementation) (name : String)
    (h : Names registry request service implementation name) :
    RunsOnlyDeclared registry request implementation name ↔ implementation.EndsEarly name := by
  cases hfound : implementation.functionOwner name with
  | none =>
    exact iff_of_true (MethodInvoker.refused_of_missing h hfound)
      (ServiceImplementation.endsEarly_of_missing hfound)
  | some owner =>
    have hsome : (implementation.functionOwner name).isSome := by
      rw [hfound]
      rfl
    have hdeclares := ServiceImplementation.declares_iff_of_found hsome
    rw [← hdeclares]
    constructor
    · intro hruns
      by_contra hnot
      exact MethodInvoker.not_runsOnlyDeclared h hfound hnot hruns
    · intro hdeclared
      exact ⟨fun _ _ => hdeclared, fun hnot => absurd hdeclared hnot⟩

/-- A service that declares one method. -/
def sampleRegistry : ServiceRegistry := ServiceRegistry.register ⟨.empty⟩ "s" ⟨[("m", true)], []⟩

def sampleRequestFor (name : String) : JsValue :=
  .object [("type", .string "request"), ("id", .string "1"), ("service", .string "s"),
    ("method", .string name), ("params", .array [])]

theorem sampleRequestFor_names (name : String) :
    Names sampleRegistry (sampleRequestFor name) "s" ⟨[("m", true)], []⟩ name := ⟨rfl, rfl, rfl⟩

theorem runs_only_declared_sample :
    RunsOnlyDeclared sampleRegistry (sampleRequestFor "m") ⟨[("m", true)], []⟩ "m" ↔
      ServiceImplementation.EndsEarly ⟨[("m", true)], []⟩ "m" :=
  runs_only_declared_iff _ _ "s" _ "m" (sampleRequestFor_names "m")

/-- `toString` of a service that does not declare it is called. -/
theorem inherited_method_called : ¬ ∀ registry request service implementation name,
    Names registry request service implementation name →
      RunsOnlyDeclared registry request implementation name := by
  intro h
  have hruns := (h _ _ _ _ _ (sampleRequestFor_names "toString")).1
    ⟨⟨"s", "toString", .objectPrototype⟩, []⟩ (by decide +kernel)
  revert hruns
  decide +kernel

end WeisleyRpc
