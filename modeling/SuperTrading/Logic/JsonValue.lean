import SuperTrading.Logic.PyFloat
import SuperTrading.Logic.Runs

/-!
# What `json.loads` Returns

The values of a JSON text in Python, and what `str` and `repr` make of them. Both can raise: an
integer has a largest number of digits to be printed, and containers a largest depth.

- **Values**: JSON values, and the interpreter that reads and prints them
- **Texts**: `repr` and `str`
- **Raising**: which values can be printed
- **Floats**: `float`, and which values it accepts
-/

namespace SuperTrading.Logic

/-! ## Section 1: Values -/

/-- A value. `object` has the items of a `dict`, in their order. -/
inductive JsonValue
  | null
  | bool (value : Bool)
  | int (value : ℤ)
  | float (value : PyFloat)
  | text (value : Text)
  | array (items : List JsonValue)
  | object (fields : List (Text × JsonValue))

/-- What depends on the interpreter: its limits, the tables of its version of Unicode, and how it
prints a float. -/
structure Interpreter where
  /-- `sys.get_int_max_str_digits()`; zero is no limit. -/
  maxStrDigits : ℕ
  /-- How many containers deep the stack has room for. -/
  maxDepth : ℕ
  upper : Text → Text
  lower : Text → Text
  decimal : ℕ → Option ℕ
  printable : ℕ → Bool
  floatRepr : PyFloat → Text

inductive PyError
  | typeError
  | valueError
  | overflowError
  | recursionError
  deriving DecidableEq, Repr

namespace JsonValue

/-- `type(value).__name__`. -/
def typeName : JsonValue → Text
  | null => Logic.text "NoneType"
  | bool _ => Logic.text "bool"
  | int _ => Logic.text "int"
  | float _ => Logic.text "float"
  | text _ => Logic.text "str"
  | array _ => Logic.text "list"
  | object _ => Logic.text "dict"

/-- `fields.get(key, default)`. -/
def get (fields : List (Text × JsonValue)) (key : String) (default : JsonValue) : JsonValue :=
  ((fields.find? fun field => field.1 = Logic.text key).map Prod.snd).getD default

end JsonValue

/-! ## Section 2: Texts -/

namespace Interpreter

variable (interp : Interpreter)

def printsInt (n : ℤ) : Bool :=
  interp.maxStrDigits = 0 ∨ n.natAbs < 10 ^ interp.maxStrDigits

def intRepr (n : ℤ) : Except PyError Text :=
  if interp.printsInt n then .ok (text (toString n)) else .error .valueError

/-- So many hexadecimal digits of a code point. -/
def hex (width c : ℕ) : Text :=
  (List.range width).reverse.map fun i =>
    let digit := c / 16 ^ i % 16
    if digit < 10 then 48 + digit else 87 + digit

/-- A code point between quotes. -/
def escaped (quote c : ℕ) : Text :=
  if c = quote ∨ c = 92 then [92, c]
  else if c = 9 then text "\\t"
  else if c = 10 then text "\\n"
  else if c = 13 then text "\\r"
  else if 32 ≤ c ∧ c < 127 ∨ 127 < c ∧ interp.printable c then [c]
  else if c < 256 then text "\\x" ++ hex 2 c
  else if c < 65536 then text "\\u" ++ hex 4 c
  else text "\\U" ++ hex 8 c

/-- In double quotes only if there are single quotes in the text, and no double ones. -/
def textRepr (t : Text) : Text :=
  let quote := if 39 ∈ t ∧ 34 ∉ t then 34 else 39
  quote :: t.flatMap (interp.escaped quote) ++ [quote]

/-- `repr(value)`, with room for so many containers. -/
def reprWithin : ℕ → JsonValue → Except PyError Text
  | _, .null => .ok (text "None")
  | _, .bool value => .ok (text (if value then "True" else "False"))
  | _, .int value => interp.intRepr value
  | _, .float value => .ok (interp.floatRepr value)
  | _, .text value => .ok (interp.textRepr value)
  | 0, .array _ => .error .recursionError
  | 0, .object _ => .error .recursionError
  | depth + 1, .array items => do
    let items ← items.mapM (reprWithin depth)
    .ok (text "[" ++ (text ", ").intercalate items ++ text "]")
  | depth + 1, .object fields => do
    let items ← fields.mapM fun (key, value) => do
      let value ← reprWithin depth value
      .ok (interp.textRepr key ++ text ": " ++ value)
    .ok (text "\x7b" ++ (text ", ").intercalate items ++ text "\x7d")

/-- `repr(value)`. -/
def repr (value : JsonValue) : Except PyError Text := interp.reprWithin interp.maxDepth value

/-- `str(value)`. -/
def str : JsonValue → Except PyError Text
  | .text value => .ok value
  | value => interp.repr value

/-! ## Section 3: Raising -/

/-- Is there room for the value, and is none of its integers too long? -/
def printsWithin : ℕ → JsonValue → Bool
  | _, .int value => interp.printsInt value
  | 0, .array _ => false
  | 0, .object _ => false
  | depth + 1, .array items => items.all (printsWithin depth)
  | depth + 1, .object fields => fields.all fun field => printsWithin depth field.2
  | _, _ => true

def prints (value : JsonValue) : Bool := interp.printsWithin interp.maxDepth value

end Interpreter

namespace Interpreter

variable {interp : Interpreter}

theorem returns_intRepr {n : ℤ} : Returns (interp.intRepr n) ↔ interp.printsInt n = true := by
  unfold intRepr
  split_ifs with h
  · exact iff_of_true (returns_ok _) h
  · exact iff_of_false (not_returns_error _) h

/-- **A value is printed exactly if there is room for it and no integer in it is too long.** -/
theorem returns_reprWithin {depth : ℕ} {value : JsonValue} :
    Returns (interp.reprWithin depth value) ↔ interp.printsWithin depth value = true := by
  induction depth generalizing value with
  | zero =>
    cases value with
    | int n => exact returns_intRepr
    | array _ => exact iff_of_false (not_returns_error _) Bool.false_ne_true
    | object _ => exact iff_of_false (not_returns_error _) Bool.false_ne_true
    | _ => exact iff_of_true (returns_ok _) rfl
  | succ depth ih =>
    cases value with
    | int n => exact returns_intRepr
    | array items =>
      rw [reprWithin, printsWithin, returns_bind_ok, returns_mapM, List.all_eq_true]
      exact forall₂_congr fun _ _ => ih
    | object fields =>
      rw [reprWithin, printsWithin, returns_bind_ok, returns_mapM, List.all_eq_true]
      exact forall₂_congr fun _ _ => (returns_bind_ok _).trans ih
    | _ => exact iff_of_true (returns_ok _) rfl

theorem returns_repr {value : JsonValue} :
    Returns (interp.repr value) ↔ interp.prints value = true := returns_reprWithin

theorem prints_null : interp.prints .null = true := by
  unfold prints
  cases interp.maxDepth <;> rfl

theorem prints_float (x : PyFloat) : interp.prints (.float x) = true := by
  unfold prints
  cases interp.maxDepth <;> rfl

theorem prints_text (t : Text) : interp.prints (.text t) = true := by
  unfold prints
  cases interp.maxDepth <;> rfl

/-- A key that is missing can be printed, whatever it defaults to. -/
theorem prints_get (fields : List (Text × JsonValue)) (key : String) :
    interp.prints (JsonValue.get fields key (.text [])) =
      interp.prints (JsonValue.get fields key .null) := by
  unfold JsonValue.get
  cases fields.find? fun field => field.1 = Logic.text key with
  | none => exact (prints_text []).trans prints_null.symm
  | some field => rfl

theorem returns_str {value : JsonValue} :
    Returns (interp.str value) ↔ interp.prints value = true := by
  cases value with
  | text t => exact iff_of_true (returns_ok t) (prints_text t)
  | _ => exact returns_repr

/-! ## Section 4: Floats -/

/-- `float(value)`. -/
def toFloat (interp : Interpreter) : JsonValue → Except PyError PyFloat
  | .bool value => .ok (.finite (if value then 1 else 0))
  | .int n =>
    match PyFloat.ofInt n with
    | some x => .ok x
    | none => .error .overflowError
  | .float x => .ok x
  | .text t =>
    match PyFloat.ofText interp.decimal t with
    | some x => .ok x
    | none => .error .valueError
  | .null | .array _ | .object _ => .error .typeError

/-- The values that `float` accepts. -/
def accepts (interp : Interpreter) : JsonValue → Bool
  | .bool _ | .float _ => true
  | .int n => n.natAbs < PyFloat.overflowBound
  | .text t => (PyFloat.ofText interp.decimal t).isSome
  | .null | .array _ | .object _ => false

theorem returns_toFloat {value : JsonValue} :
    Returns (interp.toFloat value) ↔ interp.accepts value = true := by
  cases value with
  | bool b => exact iff_of_true (returns_ok _) rfl
  | float x => exact iff_of_true (returns_ok x) rfl
  | int n =>
    simp only [toFloat, accepts, PyFloat.ofInt, decide_eq_true_eq]
    split_ifs with hbound
    · exact iff_of_true (returns_ok _) hbound
    · exact iff_of_false (not_returns_error _) hbound
  | text t =>
    simp only [toFloat, accepts]
    cases PyFloat.ofText interp.decimal t with
    | some x => exact iff_of_true (returns_ok x) rfl
    | none => exact iff_of_false (not_returns_error _) Bool.false_ne_true
  | null => exact iff_of_false (not_returns_error _) Bool.false_ne_true
  | array items => exact iff_of_false (not_returns_error _) Bool.false_ne_true
  | object fields => exact iff_of_false (not_returns_error _) Bool.false_ne_true

end Interpreter

end SuperTrading.Logic
