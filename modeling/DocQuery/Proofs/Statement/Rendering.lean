import DocQuery.Decimal.Binary
import DocQuery.Statement.Basic
import DocQuery.Token.Basic

/-!
# From statements to tokens

A statement is written with as few brackets as its binding of operators allows.  From
loose to tight the levels are `OR` 1, `AND` 2, `NOT`, comparison and `IN` 3, `+` and `-`
4, `*` and `/` 5, operand 6; what binds looser than its place asks is put in brackets.
A predicate that is used as a term of a condition is in brackets in any case, since a
bare one is a condition of its own.
-/

namespace DocQuery

/-! ## Words and literals -/

def Keyword.ofSpelling? (spelling : String) : Option Keyword :=
  Keyword.all.find? fun keyword => keyword.spelling == spelling

/-- The token of a label, which may be spelled like a reserved word. -/
def labelToken (label : String) : Token :=
  match Keyword.ofSpelling? label with
  | some keyword => .keyword keyword
  | none => .identifier label

def labelTokens : Option String → List Token
  | none => []
  | some label => [.keyword .as, labelToken label]

/-- A constant; a negative number is written with a minus sign. -/
def Constant.tokens : Constant → List Token
  | null => [.keyword .null]
  | bool true => [.keyword .true]
  | bool false => [.keyword .false]
  | integer n => if 0 ≤ n then [.integer n.toNat] else [.mark .minus, .integer (-n).toNat]
  | float x => if isNegative x then [.mark .minus, .float (-x)] else [.float x]
  | text s => [.text s]
  | parameter name => [.parameter name]

/-- The segments of a path after its first, each in brackets. -/
def segmentTokens (segments : List String) : List Token :=
  segments.flatMap fun segment => [.mark .leftBracket, .text segment, .mark .rightBracket]

def pathTokens : List String → List Token
  | [] => []
  | first :: others => .identifier first :: segmentTokens others

def Function.callName (f : Function) : String :=
  ((Function.names.find? fun entry => entry.2 == f).map Prod.fst).getD ""

def Comparison.mark : Comparison → Mark
  | equal => .equal
  | notEqual => .notEqual
  | less => .less
  | greater => .greater
  | lessOrEqual => .lessOrEqual
  | greaterOrEqual => .greaterOrEqual

def Arithmetic.mark : Arithmetic → Mark
  | add => .plus
  | subtract => .minus
  | multiply => .star
  | divide => .slash

/-! ## Levels -/

def Arithmetic.level : Arithmetic → Nat
  | add | subtract => 4
  | multiply | divide => 5

def Condition.level : Condition → Nat
  | any _ => 1
  | all _ => 2
  | _ => 3

def Form.level : Form → Nat
  | .call .membership _ => 3
  | .arithmetic op _ _ => op.level
  | .condition c => c.level
  | _ => 6

/-- Whether a term is a predicate that is not negated. -/
def Term.isPredicate : Term → Bool
  | ⟨_, false, .condition _⟩ => true
  | _ => false

def inParens (xs : List Token) : List Token :=
  .mark .leftParen :: xs ++ [.mark .rightParen]

/-- Tokens of some level where at least a wanted level stands. -/
def atLevel (wanted level : Nat) (xs : List Token) : List Token :=
  if level < wanted then inParens xs else xs

/-- Whether a star stands for a projection: it is the value that the source binds. -/
def Projection.isStar (source : Source) : Projection → Bool
  | .value ⟨none, false, .path [name]⟩ => source.bindingName? == some name
  | _ => false

def windowTokens (offset : Nat) : Option Nat → List Token
  | some n => [.keyword .offset, .integer offset, .keyword .limit, .integer n]
  | none => []

/-! ## Statements -/

mutual

/-- A term where at least a wanted level stands, without its label. -/
def Term.tokens (wanted : Nat) : Term → List Token
  | ⟨_, false, form⟩ => atLevel wanted form.level form.tokens
  | ⟨_, true, form⟩ => atLevel wanted 3 (.keyword .not :: atLevel 3 form.level form.tokens)

def Form.tokens : Form → List Token
  | .path segments => pathTokens segments
  | .object members => .mark .leftBrace :: (memberTokens members).tail ++ [.mark .rightBrace]
  | .array elements => .mark .leftBracket :: (termsTokens elements).tail ++ [.mark .rightBracket]
  | .constant c => c.tokens
  | .call .membership [] => []
  | .call .membership (needle :: candidates) =>
      needle.tokens 4 ++ .keyword .in :: inParens (termsTokens candidates).tail
  | .call f arguments => .identifier f.callName :: inParens (termsTokens arguments).tail
  | .arithmetic op left right =>
      left.tokens op.level ++ .mark op.mark :: right.tokens (op.level + 1)
  | .condition c => c.tokens
  | .subquery s => inParens s.tokens
  | .existence s => .keyword .exists :: inParens s.tokens

def termsTokens : List Term → List Token
  | [] => []
  | t :: rest => .mark .comma :: t.tokens 1 ++ termsTokens rest

def memberTokens : List Term → List Token
  | [] => []
  | ⟨label, negated, form⟩ :: rest =>
      .mark .comma :: .text (label.getD "") :: .mark .colon ::
        Term.tokens 1 ⟨label, negated, form⟩ ++ memberTokens rest

def columnTokens : List Term → List Token
  | [] => []
  | ⟨label, negated, form⟩ :: rest =>
      .mark .comma :: Term.tokens 1 ⟨label, negated, form⟩ ++ labelTokens label ++
        columnTokens rest

def Condition.tokens : Condition → List Token
  | .compare op left right => left.tokens 4 ++ .mark op.mark :: right.tokens 4
  | .all parts => (partTokens .and parts).tail
  | .any parts => (partTokens .or parts).tail
  | .constant c => c.tokens
  | .term t => if t.isPredicate then inParens (t.tokens 1) else t.tokens 1

def partTokens (word : Keyword) : List Condition → List Token
  | [] => []
  | c :: rest => .keyword word :: c.tokens ++ partTokens word rest

def Projection.tokens : Projection → List Token
  | .columns terms => (columnTokens terms).tail
  | .value ⟨label, negated, form⟩ =>
      .keyword .value :: Term.tokens 1 ⟨label, negated, form⟩ ++ labelTokens label

def Source.tokens : Source → List Token
  | .documents => []
  | .path segments label => .keyword .from :: pathTokens segments ++ labelTokens label
  | .each name segments =>
      .keyword .from :: .identifier name :: .keyword .in :: pathTokens segments
  | .subquery s label => .keyword .from :: inParens s.tokens ++ labelTokens (some label)

def Join.tokens : Join → List Token
  | .each name segments => .identifier name :: .keyword .in :: pathTokens segments
  | .subquery s label => inParens s.tokens ++ labelTokens (some label)

def joinTokens : List Join → List Token
  | [] => []
  | join :: rest => .keyword .join :: join.tokens ++ joinTokens rest

def filterTokens : Option Condition → List Token
  | none => []
  | some c => .keyword .where :: c.tokens

def keyTokens : List SortKey → List Token
  | [] => []
  | ⟨t, direction⟩ :: rest =>
      .mark .comma :: t.tokens 4 ++ (if direction = .descending then [.keyword .desc] else []) ++
        keyTokens rest

def Statement.tokens : Statement → List Token
  | ⟨projection, source, joins, filter, grouping, ordering, distinct, offset, count⟩ =>
      .keyword .select ::
        (if distinct then [.keyword .distinct] else []) ++
        (if projection.isStar source then [.mark .star] else projection.tokens) ++
        source.tokens ++ joinTokens joins ++ filterTokens filter ++
        (if grouping.isEmpty then []
          else .keyword .group :: .keyword .by :: (termsTokens grouping).tail) ++
        (if ordering.isEmpty then []
          else .keyword .order :: .keyword .by :: (keyTokens ordering).tail) ++
        windowTokens offset count

end

end DocQuery
