import Mathlib.Data.Rat.Defs

/-!
# JavaScript values and errors

The values that cross the runtime's boundaries: what a deserializer hands back,
what a method takes and returns, what is thrown. An object is its list of own
properties. A value that carries no data of its own (a function, a symbol, a
cyclic or host object) is `foreign`, known only by what `String` makes of it.
-/

inductive JsNumber
  | nan
  | infinity
  | negInfinity
  | finite (q : ℚ)
  deriving DecidableEq, Repr

namespace JsNumber

def ofNat (n : ℕ) : JsNumber := .finite n

/-- `x <= n` for a length `n`. -/
def leNat : JsNumber → ℕ → Bool
  | .nan, _ => false
  | .infinity, _ => false
  | .negInfinity, _ => true
  | .finite q, n => q ≤ n

def truthy : JsNumber → Bool
  | .nan => false
  | .finite q => q ≠ 0
  | _ => true

/-- `Math.min`. -/
def min : JsNumber → JsNumber → JsNumber
  | .nan, _ => .nan
  | _, .nan => .nan
  | .negInfinity, _ => .negInfinity
  | _, .negInfinity => .negInfinity
  | .infinity, n => n
  | n, .infinity => n
  | .finite p, .finite q => .finite (if p ≤ q then p else q)

/-- The digits of a fraction are not reproduced. -/
def toText : JsNumber → String
  | .nan => "NaN"
  | .infinity => "Infinity"
  | .negInfinity => "-Infinity"
  | .finite q => toString q

end JsNumber

inductive JsValue
  | undefined
  | null
  | boolean (b : Bool)
  | number (n : JsNumber)
  | string (s : String)
  | bigint (n : ℤ)
  | array (items : List JsValue)
  | object (fields : List (String × JsValue))
  | foreign (text : Option String)
  deriving Repr

/-- The `Error` instances that are thrown: an `RpcError` or one of its subclasses
with its code, or an error of the platform. -/
inductive JsError
  | rpcError (message : String) (code : JsValue)
  | native (name message : String) (stack code : Option String)
  deriving Repr

/-- Anything a method may throw or reject with. -/
inductive Thrown
  | error (e : JsError)
  | value (v : JsValue)
  deriving Repr

namespace JsError

def message : JsError → String
  | .rpcError m _ => m
  | .native _ m _ _ => m

/-- An error of the platform; the frames of its stack are not reproduced. -/
def platform (name message : String) : JsError :=
  .native name message (some s!"{name}: {message}") none

def rangeError (message : String) : JsError := .platform "RangeError" message
def typeError (message : String) : JsError := .platform "TypeError" message

end JsError

namespace JsValue

mutual
def decEq : (v w : JsValue) → Decidable (v = w)
  | .undefined, .undefined => isTrue rfl
  | .null, .null => isTrue rfl
  | .boolean a, .boolean b => if h : a = b then isTrue (by rw [h]) else isFalse (by simpa using h)
  | .number a, .number b => if h : a = b then isTrue (by rw [h]) else isFalse (by simpa using h)
  | .string a, .string b => if h : a = b then isTrue (by rw [h]) else isFalse (by simpa using h)
  | .bigint a, .bigint b => if h : a = b then isTrue (by rw [h]) else isFalse (by simpa using h)
  | .foreign a, .foreign b => if h : a = b then isTrue (by rw [h]) else isFalse (by simpa using h)
  | .array a, .array b =>
    match decEqItems a b with
    | isTrue h => isTrue (by rw [h])
    | isFalse h => isFalse (by simpa using h)
  | .object a, .object b =>
    match decEqFields a b with
    | isTrue h => isTrue (by rw [h])
    | isFalse h => isFalse (by simpa using h)
  | .undefined, .null | .undefined, .boolean _ | .undefined, .number _ | .undefined, .string _
  | .undefined, .bigint _ | .undefined, .array _ | .undefined, .object _ | .undefined, .foreign _
  | .null, .undefined | .null, .boolean _ | .null, .number _ | .null, .string _
  | .null, .bigint _ | .null, .array _ | .null, .object _ | .null, .foreign _
  | .boolean _, .undefined | .boolean _, .null | .boolean _, .number _ | .boolean _, .string _
  | .boolean _, .bigint _ | .boolean _, .array _ | .boolean _, .object _ | .boolean _, .foreign _
  | .number _, .undefined | .number _, .null | .number _, .boolean _ | .number _, .string _
  | .number _, .bigint _ | .number _, .array _ | .number _, .object _ | .number _, .foreign _
  | .string _, .undefined | .string _, .null | .string _, .boolean _ | .string _, .number _
  | .string _, .bigint _ | .string _, .array _ | .string _, .object _ | .string _, .foreign _
  | .bigint _, .undefined | .bigint _, .null | .bigint _, .boolean _ | .bigint _, .number _
  | .bigint _, .string _ | .bigint _, .array _ | .bigint _, .object _ | .bigint _, .foreign _
  | .array _, .undefined | .array _, .null | .array _, .boolean _ | .array _, .number _
  | .array _, .string _ | .array _, .bigint _ | .array _, .object _ | .array _, .foreign _
  | .object _, .undefined | .object _, .null | .object _, .boolean _ | .object _, .number _
  | .object _, .string _ | .object _, .bigint _ | .object _, .array _ | .object _, .foreign _
  | .foreign _, .undefined | .foreign _, .null | .foreign _, .boolean _ | .foreign _, .number _
  | .foreign _, .string _ | .foreign _, .bigint _ | .foreign _, .array _ | .foreign _, .object _ =>
    isFalse (by intro h; cases h)

def decEqItems : (a b : List JsValue) → Decidable (a = b)
  | [], [] => isTrue rfl
  | [], _ :: _ | _ :: _, [] => isFalse (by intro h; cases h)
  | v :: vs, w :: ws =>
    match decEq v w with
    | isFalse h => isFalse (by intro he; cases he; exact h rfl)
    | isTrue h =>
      match decEqItems vs ws with
      | isTrue hs => isTrue (by rw [h, hs])
      | isFalse hs => isFalse (by intro he; cases he; exact hs rfl)

def decEqFields : (a b : List (String × JsValue)) → Decidable (a = b)
  | [], [] => isTrue rfl
  | [], _ :: _ | _ :: _, [] => isFalse (by intro h; cases h)
  | (k, v) :: vs, (l, w) :: ws =>
    if hk : k = l then
      match decEq v w with
      | isFalse h => isFalse (by intro he; cases he; exact h rfl)
      | isTrue h =>
        match decEqFields vs ws with
        | isTrue hs => isTrue (by rw [hk, h, hs])
        | isFalse hs => isFalse (by intro he; cases he; exact hs rfl)
    else isFalse (by intro he; cases he; exact hk rfl)
end

instance : DecidableEq JsValue := decEq

deriving instance DecidableEq for JsError
deriving instance DecidableEq for Thrown

/-- `v.key` of a value that is known not to be `undefined` or `null`. -/
def prop (v : JsValue) (key : String) : JsValue :=
  match v with
  | .object fields => (fields.lookup key).getD .undefined
  | _ => .undefined

def isNullish : JsValue → Bool
  | .undefined | .null => true
  | _ => false

/-- `v.key`, which throws on `undefined` and `null`. -/
def get (v : JsValue) (key : String) : Except JsError JsValue :=
  match v with
  | .undefined => .error (.typeError "Cannot read properties of undefined")
  | .null => .error (.typeError "Cannot read properties of null")
  | _ => .ok (v.prop key)

def truthy : JsValue → Bool
  | .undefined | .null => false
  | .boolean b => b
  | .number n => n.truthy
  | .string s => s ≠ ""
  | .bigint n => n ≠ 0
  | _ => true

/-- `v ?? w`. -/
def orElse (v w : JsValue) : JsValue := if v.isNullish then w else v

mutual
/-- `String(v)`. An object's own `toString` is never callable in decoded data, and the
inherited `valueOf` gives no primitive either, so such an object has no text. -/
def toText : JsValue → Except JsError String
  | .undefined => .ok "undefined"
  | .null => .ok "null"
  | .boolean b => .ok (if b then "true" else "false")
  | .number n => .ok n.toText
  | .string s => .ok s
  | .bigint n => .ok (toString n)
  | .array items => (itemTexts items).map (String.intercalate ",")
  | .object fields =>
    if (fields.lookup "toString").isSome then
      .error (.typeError "Cannot convert object to primitive value")
    else .ok "[object Object]"
  | .foreign (some text) => .ok text
  | .foreign none => .error (.typeError "Cannot convert object to primitive value")

def itemTexts : List JsValue → Except JsError (List String)
  | [] => .ok []
  | v :: vs => do
    let t ← if v.isNullish then .ok "" else toText v
    let ts ← itemTexts vs
    return t :: ts
end

@[simp] theorem prop_object (fields : List (String × JsValue)) (key : String) :
    (object fields).prop key = (fields.lookup key).getD .undefined := rfl

@[simp] theorem isNullish_undefined : isNullish .undefined = true := rfl
@[simp] theorem isNullish_null : isNullish .null = true := rfl
@[simp] theorem isNullish_boolean (b : Bool) : (boolean b).isNullish = false := rfl
@[simp] theorem isNullish_number (n : JsNumber) : (number n).isNullish = false := rfl
@[simp] theorem isNullish_string (s : String) : (string s).isNullish = false := rfl
@[simp] theorem isNullish_array (items : List JsValue) : (array items).isNullish = false := rfl
@[simp] theorem isNullish_object (fields : List (String × JsValue)) :
    (object fields).isNullish = false := rfl

@[simp] theorem truthy_undefined : truthy .undefined = false := rfl
@[simp] theorem truthy_object (fields : List (String × JsValue)) : (object fields).truthy = true := rfl

@[simp] theorem toText_string (s : String) : toText (.string s) = .ok s := by simp [toText]

example : toText (.object [("toString", .number (.ofNat 1))]) =
    .error (.typeError "Cannot convert object to primitive value") := by decide +kernel

theorem get_eq_ok_iff {v w : JsValue} {key : String} :
    v.get key = .ok w ↔ v.isNullish = false ∧ v.prop key = w := by
  cases v <;> simp [get, isNullish]

end JsValue

theorem Except.bind_eq_ok_iff {ε α β : Type} {x : Except ε α} {f : α → Except ε β} {b : β} :
    (x >>= f) = .ok b ↔ ∃ a, x = .ok a ∧ f a = .ok b := by
  cases x <;> simp [bind, Except.bind]

theorem Except.toOption_eq_some_iff {ε α : Type} {x : Except ε α} {a : α} :
    x.toOption = some a ↔ x = .ok a := by
  cases x <;> simp [Except.toOption]
