import Mathlib.Algebra.Group.Nat.Defs
import MsmTftp.ProtocolHeader

/-!
# Transfer modes and negotiated options

Keys and modes are compared up to ASCII case.  Numbers are read by
`std::from_chars`, which accepts a non-empty run of decimal digits and fails
when the value does not fit the target type; the decoders also insist that the
digits reach the end of the token.
-/

namespace MsmTftp

def asciiBytes (characters : List Char) : Bytes :=
  characters.map fun character => UInt8.ofNat character.toNat

/-- `tolower` of the C locale. -/
def toLower (character : UInt8) : UInt8 :=
  if 65 ≤ character ∧ character ≤ 90 then character + 32 else character

/-- `detail::Equal`: only the first argument is folded. -/
def caseInvariantEqual (first second : Bytes) : Bool :=
  first.map toLower == second

def isDigit (character : UInt8) : Bool :=
  48 ≤ character && character ≤ 57

def decimalValue (digits : Bytes) : Nat :=
  digits.foldl (fun value digit => 10 * value + (digit.toNat - 48)) 0

/-- `std::from_chars` for an unsigned type with values below `limit`: the
number read and what follows it. -/
def fromChars (limit : Nat) (value : Bytes) : Option (Nat × Bytes) :=
  let digits := value.takeWhile isDigit
  if digits = [] then none
  else if decimalValue digits < limit then
    some (decimalValue digits, value.dropWhile isDigit)
  else none

inductive Mode
  | netAscii
  | octet
  | mail
  deriving DecidableEq, Repr

def kOctetMode : Bytes := asciiBytes ['o', 'c', 't', 'e', 't']

def kNetasciiMode : Bytes :=
  asciiBytes ['n', 'e', 't', 'a', 's', 'c', 'i', 'i']

def kMailMode : Bytes := asciiBytes ['m', 'a', 'i', 'l']

def getMode (mode : Bytes) : Option Mode :=
  if caseInvariantEqual mode kOctetMode then some .octet
  else if caseInvariantEqual mode kNetasciiMode then some .netAscii
  else if caseInvariantEqual mode kMailMode then some .mail
  else none

namespace BlockSizeDecoder

def kMinDataBlockCount : Nat := 8
def kMaxDataBlockCount : Nat := 65464

def kBlockSizeOption : Bytes :=
  asciiBytes ['b', 'l', 'k', 's', 'i', 'z', 'e']

def isBlockSizeOption (key : Bytes) : Bool :=
  caseInvariantEqual key kBlockSizeOption

def isValidBlockSize (value : Nat) : Bool :=
  !(value < kMinDataBlockCount || value > kMaxDataBlockCount)

def getBlockSize (value : Bytes) : Option Nat :=
  match fromChars (2 ^ 64) value with
  | some (result, []) => if isValidBlockSize result then some result else none
  | _ => none

end BlockSizeDecoder

namespace TimeOutDecoder

def kTimeOutOption : Bytes :=
  asciiBytes ['t', 'i', 'm', 'e', 'o', 'u', 't']

def isTimeOutOption (key : Bytes) : Bool :=
  caseInvariantEqual key kTimeOutOption

/-- The time-out in milliseconds; the option counts seconds in one byte. -/
def getTimeOut (value : Bytes) : Option Nat :=
  match fromChars (2 ^ 8) value with
  | some (result, []) => if result = 0 then none else some (1000 * result)
  | _ => none

end TimeOutDecoder

namespace TransferSizeDecoder

def kTransferSizeOption : Bytes :=
  asciiBytes ['t', 's', 'i', 'z', 'e']

def isTransferSizeOption (key : Bytes) : Bool :=
  caseInvariantEqual key kTransferSizeOption

def getTransferSize (value : Bytes) : Option Nat :=
  match fromChars (2 ^ 64) value with
  | some (result, []) => some result
  | _ => none

end TransferSizeDecoder

/-- Block sizes that pass the decoder lie in the range of RFC 2348. -/
theorem getBlockSize_bounds {value : Bytes} {size : Nat}
    (decoded : BlockSizeDecoder.getBlockSize value = some size) :
    BlockSizeDecoder.kMinDataBlockCount ≤ size ∧
      size ≤ BlockSizeDecoder.kMaxDataBlockCount := by
  simp only [BlockSizeDecoder.getBlockSize] at decoded
  split at decoded
  · rename_i result _
    by_cases valid : BlockSizeDecoder.isValidBlockSize result = true
    · rw [if_pos valid, Option.some.injEq] at decoded
      subst decoded
      simpa [BlockSizeDecoder.isValidBlockSize] using valid
    · rw [if_neg valid] at decoded
      simp at decoded
  · simp at decoded

end MsmTftp
