import ReleaseMatrix.Json.Parser
import ReleaseMatrix.Json.Printer
import ReleaseMatrix.Proofs.Text.Decimal

/- What is written of one text or of one integer is read back, whatever follows it. -/
namespace ReleaseMatrix.Json

variable {rest acc : List Char} {c : Char}

inductive Written (c : Char) : List Char → Prop where
  | named (e : Char) (other : e ≠ 'u') (means : simpleEscape? e = some c) : Written c ['\\', e]
  | control (low : c.toNat < 32) :
      Written c ['\\', 'u', '0', '0', hexDigit (c.toNat / 16), hexDigit (c.toNat % 16)]
  | plain (quote : c ≠ '"') (backslash : c ≠ '\\') (visible : ¬ c.toNat < 32) : Written c [c]

/-- What cannot go on with a number. -/
def Ended (rest : List Char) : Prop := ∀ c cs, rest = c :: cs → c = ',' ∨ c = '\n'

end ReleaseMatrix.Json
