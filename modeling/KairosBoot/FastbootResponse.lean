import KairosBoot.ByteSlices
import KairosBoot.Guards

/-! # Fastboot responses

The transfer results of `transport_session.hpp` and the responses of `fastboot_protocol.cpp`.  A
`std::string` is the string of its bytes: `bytesToString` and `stringBytes` read a byte as the
character with its number. -/

namespace KairosBoot

open Guards

/-! ### Strings of bytes -/

/-- `bytes_to_string`. -/
def bytesToString (bytes : Bytes) : String :=
  String.ofList (bytes.map fun byte => Char.ofNat byte.toNat)

/-- `std::as_bytes` of a string. -/
def stringBytes (text : String) : Bytes :=
  text.toList.map fun character => UInt8.ofNat character.toNat

/-! ### Transfers -/

inductive TransportStatus where
  | ok | timeout | cancelled | disconnected | ioError
  deriving DecidableEq, Repr

inductive TransferCertainty where
  | notTransferred | fullyTransferred | partialOrUnknown
  deriving DecidableEq, Repr

structure TransferResult where
  status : TransportStatus := .ok
  transferred : ℕ := 0
  certainty : TransferCertainty := .fullyTransferred
  truncated : Bool := false
  detail : String := ""
  nativeCode : ℤ := 0
  deriving DecidableEq, Repr

/-! ### Responses -/

inductive ResponseKind where
  | info | text | okay | fail | data
  deriving DecidableEq, Repr

structure Response where
  kind : ResponseKind
  payload : String
  dataSize : Option ℕ := none
  deriving DecidableEq, Repr

/-- An INFO or TEXT response. -/
def Response.isInformational (response : Response) : Bool :=
  response.kind = .info ∨ response.kind = .text

/-- An OKAY or FAIL response. -/
def Response.isTerminal (response : Response) : Bool :=
  response.kind = .okay ∨ response.kind = .fail

def Response.announcedSize (response : Response) : Option ℕ :=
  if response.kind = .data then response.dataSize else none

inductive ResponseParseErrorCode where
  | zeroLength | tooShort | tooLong | unknownPrefix | invalidDataLength | invalidDataHex
  deriving DecidableEq, Repr

structure ResponseParseError where
  code : ResponseParseErrorCode
  message : String
  deriving DecidableEq, Repr

def hexDigitValue (byte : UInt8) : Option ℕ :=
  let n := byte.toNat
  if 48 ≤ n ∧ n ≤ 57 then some (n - 48)
  else if 97 ≤ n ∧ n ≤ 102 then some (n - 87)
  else if 65 ≤ n ∧ n ≤ 70 then some (n - 55)
  else none

/-- `std::from_chars` in base 16 over the whole text; eight digits cannot overflow. -/
def hexValue (digits : Bytes) : Option ℕ :=
  digits.foldlM (fun value digit => (hexDigitValue digit).map fun d => value * 16 + d) 0

/-- `has_prefix` for the status prefixes. -/
def hasPrefix (packet : Bytes) (status : String) : Bool :=
  (stringBytes status).isPrefixOf packet

/-- `parse_response`. -/
def parseResponse (packet : Bytes) (maxResponseBytes : ℕ) : Except ResponseParseError Response := do
  failIf (packet.length = 0)
    ⟨.zeroLength, "Fastboot logical response is empty"⟩
  failIf (packet.length < 4)
    ⟨.tooShort, "Fastboot response is shorter than its four-byte status prefix"⟩
  failIf (maxResponseBytes < packet.length)
    ⟨.tooLong, "Fastboot response exceeds the configured response limit"⟩
  let payload := packet.drop 4
  if hasPrefix packet "INFO" then .ok ⟨.info, bytesToString payload, none⟩
  else if hasPrefix packet "TEXT" then .ok ⟨.text, bytesToString payload, none⟩
  else if hasPrefix packet "OKAY" then .ok ⟨.okay, bytesToString payload, none⟩
  else if hasPrefix packet "FAIL" then .ok ⟨.fail, bytesToString payload, none⟩
  else do
    failIf (¬ hasPrefix packet "DATA")
      ⟨.unknownPrefix, "Fastboot response has an unknown status prefix"⟩
    failIf (payload.length ≠ 8)
      ⟨.invalidDataLength, "Fastboot DATA response must contain exactly eight hexadecimal digits"⟩
    let dataSize ← orFail (hexValue payload)
      ⟨.invalidDataHex, "Fastboot DATA response contains invalid hexadecimal digits"⟩
    .ok ⟨.data, bytesToString payload, some dataSize⟩

example : parseResponse (stringBytes "DATA0000001f") 256
    = .ok ⟨.data, "0000001f", some 31⟩ := by decide

/-- `%08x`: the eight lower-case hexadecimal digits of a 32-bit number. -/
def hexDigits (value : ℕ) : String :=
  String.ofList ((List.range 8).map fun i => Nat.digitChar (value / 16 ^ (7 - i) % 16))

example : hexDigits 0x1f = "0000001f" := by decide

/-- The text is the eight lower-case hexadecimal digits of a number. -/
structure LowerHex (digits : Bytes) (value : ℕ) : Prop where
  length_eq : digits.length = 8
  lower : ∀ d ∈ digits, (48 ≤ d.toNat ∧ d.toNat ≤ 57) ∨ (97 ≤ d.toNat ∧ d.toNat ≤ 102)
  value_eq : hexValue digits = some value

def hexByte (digit : ℕ) : UInt8 := UInt8.ofNat (Nat.digitChar digit).toNat

theorem hexDigitValue_hexByte : ∀ digit < 16, hexDigitValue (hexByte digit) = some digit := by
  decide

theorem hexByte_lower : ∀ digit < 16, (48 ≤ (hexByte digit).toNat ∧ (hexByte digit).toNat ≤ 57) ∨
    (97 ≤ (hexByte digit).toNat ∧ (hexByte digit).toNat ≤ 102) := by
  decide

theorem stringBytes_append (a b : String) : stringBytes (a ++ b) = stringBytes a ++ stringBytes b := by
  simp [stringBytes]

theorem stringBytes_hexDigits (value : ℕ) : stringBytes (hexDigits value)
    = (List.range 8).map fun i => hexByte (value / 16 ^ (7 - i) % 16) := by
  simp [stringBytes, hexDigits, hexByte]

/-- Reading the digits in order undoes the divisions. -/
theorem hexValue_hexByte {value : ℕ} (h : value < 2 ^ 32) :
    hexValue ((List.range 8).map fun i => hexByte (value / 16 ^ (7 - i) % 16)) = some value := by
  have hdigit : ∀ i, hexDigitValue (hexByte (value / 16 ^ i % 16)) = some (value / 16 ^ i % 16) :=
    fun i => hexDigitValue_hexByte _ (Nat.mod_lt _ (by decide))
  have hrange : List.range 8 = [0, 1, 2, 3, 4, 5, 6, 7] := by decide
  simp only [hrange, List.map_cons, List.map_nil, hexValue, List.foldlM_cons, List.foldlM_nil,
    hdigit, Option.map_some, Option.bind_eq_bind, Option.bind_some, Option.pure_def,
    Option.some.injEq]
  omega

theorem lowerHex_hexDigits {value : ℕ} (h : value < 2 ^ 32) :
    LowerHex (stringBytes (hexDigits value)) value := by
  rw [stringBytes_hexDigits]
  refine ⟨by simp, fun d hd => ?_, hexValue_hexByte h⟩
  obtain ⟨i, -, rfl⟩ := List.mem_map.mp hd
  exact hexByte_lower _ (Nat.mod_lt _ (by decide))

end KairosBoot
