import Hwi.Format.Descriptor

/-! Wallet descriptor templates of BIP 388 as texts with placeholders. -/

namespace Hwi

namespace Template

/-- A character of a template, or a placeholder by all its digits. -/
inductive Token
  | char (c : Char)
  | key (digits : Str)
deriving DecidableEq, Repr

/-- The tokens of a template, with the digits of a placeholder that is being read. -/
def scan : Option Str → Str → List Token
  | none, [] => []
  | some digits, [] => [.key digits]
  | none, c :: s => if c = '@' then scan (some []) s else .char c :: scan none s
  | some digits, c :: s =>
    if c.isDigit then scan (some (digits ++ [c])) s
    else if c = '@' then .key digits :: scan (some []) s
    else .key digits :: .char c :: scan none s

def tokens (template : Str) : List Token := scan none template

/-- The placeholders, by their digits. -/
def placeholders (template : Str) : List Str :=
  (tokens template).filterMap fun token => match token with
    | .char _ => none
    | .key digits => some digits

/-- What stands for a token when the keys are filled in. -/
def spell (keysInfo : List Str) : Token → Str
  | .char c => [c]
  | .key digits => keysInfo.getD (Nat.ofDigitChars 10 digits 0) []

/-- The template with each placeholder replaced by its key. -/
def fill (keysInfo : List Str) (template : Str) : Str := (tokens template).flatMap (spell keysInfo)

end Template

/-- Whether a key can be part of a wallet policy. -/
def PubkeyProvider.Suits (p : PubkeyProvider) : Prop :=
  p.ranged = true ∧ ∀ step ∈ p.steps, step.length ≤ 2

end Hwi
