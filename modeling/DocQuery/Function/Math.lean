import DocQuery.Function.Basic
import DocQuery.Value.Basic

/-!
# Functions of numbers

Trigonometric functions take radians, the inverse ones of one argument answer in
degrees.  A result that is no finite number, and an argument outside the domain,
give null.  The functions of signed words are exact or null.
-/

namespace DocQuery

namespace MathFunction

def piValue : Float := 3.141592653589793

def eulerValue : Float := 2.718281828459045

def degreesPerRadian : Float := 57.2957795130823208767981548141051703

def toDegrees (x : Float) : Float := x * degreesPerRadian

def toRadians (x : Float) : Float := x * (piValue / 180.0)

def truncate (x : Float) : Float :=
  if x < 0.0 then x.ceil else x.floor

def onFloat (f : Float → Float) (value : Value) : Value :=
  match value.toFloat? with
  | some x => .ofFloat (f x)
  | none => .null

/-- A function of doubles that is defined on a part of them only. -/
def onDomain (domain : Float → Bool) (f : Float → Float) (value : Value) : Value :=
  match value.toFloat? with
  | some x => if domain x then .ofFloat (f x) else .null
  | none => .null

def onFloats (f : Float → Float → Float) (left right : Value) : Value :=
  match left.toFloat?, right.toFloat? with
  | some x, some y => .ofFloat (f x y)
  | _, _ => .null

/-- A function that keeps integers: exact on signed words, on doubles otherwise. -/
def keepingIntegers (onWord : Int → Int) (f : Float → Float) (value : Value) : Value :=
  match value.toInt? with
  | some n => if FitsSigned (onWord n) then .ofInt (onWord n) else onFloat f value
  | none => onFloat f value

def signOf (value : Value) : Value :=
  match value.toInt? with
  | some n => .ofInt n.sign
  | none =>
      match value.toFloat? with
      | some x => .ofInt (if 0.0 < x then 1 else if x < 0.0 then -1 else 0)
      | none => .null

/-- A double given as an option; null selects the default, a wrong one nothing. -/
def option? (default : Float) (valid : Float → Bool) : Value → Option Float
  | .null => some default
  | value =>
      match value.toFloat? with
      | some x => if valid x then some x else none
      | none => none

def logarithm (value base : Value) : Value :=
  match option? eulerValue (fun b => decide (0.0 < b) && !(b == 1.0)) base with
  | some b => onDomain (fun x => 0.0 < x) (fun x => x.log / b.log) value
  | none => .null

/-- The lower end of the bin a number falls into. -/
def binOf (value size : Value) : Value :=
  match option? 1.0 (fun b => !(b == 0.0)) size with
  | some b => onFloat (fun x => (x / b).floor * b) value
  | none => .null

/-- Whether a number is the sine or cosine of an angle. -/
def isRatio (x : Float) : Bool :=
  decide (-1.0 ≤ x) && decide (x ≤ 1.0)

def apply (f : MathFunction) (arguments : List Value) : Value :=
  let first := arguments.getD 0 .null
  let second := arguments.getD 1 .null
  match f with
  | abs => keepingIntegers (fun n => n.natAbs) Float.abs first
  | ceiling => keepingIntegers (fun n => n) Float.ceil first
  | floor => keepingIntegers (fun n => n) Float.floor first
  | round => keepingIntegers (fun n => n) Float.round first
  | trunc => onFloat truncate first
  | cos => onFloat Float.cos first
  | sin => onFloat Float.sin first
  | tan => onFloat Float.tan first
  | exp => onFloat Float.exp first
  | sqrt => onFloat Float.sqrt first
  | square => onFloat (fun x => x * x) first
  | degrees => onFloat toDegrees first
  | radians => onFloat toRadians first
  | atan => onFloat (fun x => toDegrees x.atan) first
  | acos => onDomain isRatio (fun x => toDegrees x.acos) first
  | asin => onDomain isRatio (fun x => toDegrees x.asin) first
  | cot => onDomain (fun x => !(x.tan == 0.0)) (fun x => 1.0 / x.tan) first
  | log10 => onDomain (fun x => 0.0 < x) Float.log10 first
  | log => logarithm first second
  | numberBin => binOf first second
  | sign => signOf first
  | atan2 => onFloats Float.atan2 first second
  | power => onFloats Float.pow first second
  | pi => .ofFloat piValue

end MathFunction

namespace WordFunction

/-- A function of the two's complement of words, as a function of integers. -/
def onBits (f : BitVec 64 → BitVec 64 → BitVec 64) (a b : Int) : Int :=
  (f (BitVec.ofInt 64 a) (BitVec.ofInt 64 b)).toInt

def compute? (f : WordFunction) (a b : Int) : Option Int :=
  match f with
  | complement => some (-a - 1)
  | add => some (a + b)
  | subtract => some (a - b)
  | multiply => some (a * b)
  | divide => if b = 0 then none else some (a.tdiv b)
  | remainder => if b = 0 ∨ ¬ FitsSigned (a.tdiv b) then none else some (a.tmod b)
  | conjunction => some (onBits (· &&& ·) a b)
  | disjunction => some (onBits (· ||| ·) a b)
  | difference => some (onBits (· ^^^ ·) a b)
  | shiftLeft => if 0 ≤ b ∧ b < 64 then some ((BitVec.ofInt 64 a <<< b.toNat).toInt) else none
  | shiftRight =>
      if 0 ≤ b ∧ b < 64 then some (((BitVec.ofInt 64 a).sshiftRight b.toNat).toInt) else none

/-- The result of a call: null unless the operands are words and the result is one. -/
def apply (f : WordFunction) (arguments : List Value) : Value :=
  let first := arguments.getD 0 .null
  let second := if f = complement then first else arguments.getD 1 .null
  match first.toInt?, second.toInt? with
  | some a, some b =>
      match f.compute? a b with
      | some n => .ofInt n
      | none => .null
  | _, _ => .null

end WordFunction

end DocQuery
