import PushReceiver.Base64Url
import PushReceiver.Decimal
import PushReceiver.Ece

set_option autoImplicit false

namespace PushReceiver

inductive HeaderState where
  | beginParam
  | beginName
  | name
  | endName
  | beginValue
  | value
  | beginQuotedValue
  | quotedValue
  | endValue
  | invalidHeader
deriving DecidableEq, Repr

-- The characters a pair's pointers and lengths stand for.
structure HeaderPair where
  name : Bytes
  value : Bytes
deriving DecidableEq, Repr

abbrev HeaderParam := List HeaderPair

-- Both lists have their newest node first.
structure HeaderParser where
  state : HeaderState
  params : List HeaderParam
deriving DecidableEq, Repr

def isSpace (c : UInt8) : Bool := c = 32 ∨ c = 9

def isValidPairName (c : UInt8) : Bool := (97 ≤ c ∧ c ≤ 122) ∨ (48 ≤ c ∧ c ≤ 57)

def isValidPairValue (c : UInt8) : Bool :=
  (65 ≤ c ∧ c ≤ 90) ∨ (97 ≤ c ∧ c ≤ 122) ∨ (48 ≤ c ∧ c ≤ 57) ∨ c = 45 ∨ c = 95

def isValidQuotedPairValue (c : UInt8) : Bool := isValidPairValue c ∨ c = 61

def HeaderParser.prependPair (parser : HeaderParser) : HeaderParser :=
  match parser.params with
  | pairs :: params => { parser with params := (⟨[], []⟩ :: pairs) :: params }
  | [] => parser

-- The updates of parser->params->pairs, the newest pair of the newest parameter.
def HeaderParser.updatePair (parser : HeaderParser) (update : HeaderPair → HeaderPair) : HeaderParser :=
  match parser.params with
  | (pair :: pairs) :: params => { parser with params := (update pair :: pairs) :: params }
  | _ => parser

def HeaderPair.appendName (c : UInt8) (pair : HeaderPair) : HeaderPair := { pair with name := pair.name ++ [c] }

def HeaderPair.appendValue (c : UInt8) (pair : HeaderPair) : HeaderPair := { pair with value := pair.value ++ [c] }

def HeaderParser.invalid (parser : HeaderParser) : HeaderParser × Bool := ({ parser with state := .invalidHeader }, false)

-- ece_header_parse: the parser, and whether to advance to the next character.
def headerParse (parser : HeaderParser) (c : UInt8) : HeaderParser × Bool :=
  match parser.state with
  | .beginParam => ({ state := .beginName, params := [] :: parser.params }, false)
  | .beginName =>
      if isSpace c then (parser, true)
      else if isValidPairName c then ({ parser.prependPair with state := .name }, false)
      else parser.invalid
  | .name =>
      if isValidPairName c then (parser.updatePair (.appendName c), true)
      else if isSpace c ∨ c = 61 then ({ parser with state := .endName }, false)
      else parser.invalid
  | .endName =>
      if isSpace c then (parser, true)
      else if c = 61 then ({ parser with state := .beginValue }, true)
      else parser.invalid
  | .beginValue =>
      if isSpace c then (parser, true)
      else if isValidPairValue c then ({ parser with state := .value }, false)
      else if c = 34 then ({ parser with state := .beginQuotedValue }, true)
      else parser.invalid
  | .value =>
      if isSpace c ∨ c = 59 ∨ c = 44 then ({ parser with state := .endValue }, false)
      else if isValidPairValue c then (parser.updatePair (.appendValue c), true)
      else parser.invalid
  | .beginQuotedValue =>
      if isValidQuotedPairValue c then ({ parser.updatePair (.appendValue c) with state := .quotedValue }, true)
      else parser.invalid
  | .quotedValue =>
      if isValidQuotedPairValue c then (parser.updatePair (.appendValue c), true)
      else if c = 34 then ({ parser with state := .endValue }, true)
      else parser.invalid
  | .endValue =>
      if isSpace c then (parser, true)
      else if c = 59 then ({ parser with state := .beginName }, true)
      else if c = 44 then ({ parser with state := .beginParam }, true)
      else parser.invalid
  | .invalidHeader => parser.invalid

-- The iterations of the while loop on one character; none where it goes to the error label.
def headerConsume : Nat → HeaderParser → UInt8 → Option HeaderParser
  | 0, _, _ => none
  | fuel + 1, parser, c =>
      let (next, advance) := headerParse parser c
      if advance then some next
      else if next.state = .invalidHeader then none
      else headerConsume fuel next c

-- An upper bound: the loop moves on from a character after four iterations at the latest.
def headerIterations : Nat := 4

def headerRun : HeaderParser → Bytes → Option HeaderParser
  | parser, [] => some parser
  | parser, c :: rest => (headerConsume headerIterations parser c).bind fun next => headerRun next rest

-- ece_header_extract_params on the characters in front of the terminating NUL.
def headerExtractParams (header : Bytes) : Option (List HeaderParam) :=
  match headerRun ⟨.beginParam, []⟩ header with
  | none => none
  | some parser =>
      if parser.state = .endValue then some parser.params.reverse
      else
        let (next, _) := headerParse parser 32
        if next.state = .endValue then some next.params.reverse else none

-- strncmp over the length of the pair's name or value: a prefix matches.
def HeaderPair.hasName (pair : HeaderPair) (name : Bytes) : Bool := pair.name.isPrefixOf name

def HeaderPair.hasValue (pair : HeaderPair) (value : Bytes) : Bool := pair.value.isPrefixOf value

-- sscanf with "%" SCNu32 on a text without white space. `overflow` is what the C library stores
-- for a number that does not fit, which the language leaves open.
def scanU32 (overflow : Bytes → UInt32) (text : Bytes) : Option Nat :=
  let negative := text.head? = some 45
  let digits := decimalDigits (if negative ∨ text.head? = some 43 then text.drop 1 else text)
  if digits = [] then none
  else if 4294967296 ≤ decimalValue digits then some (overflow text).toNat
  else if negative then some ((4294967296 - decimalValue digits) % 4294967296)
  else some (decimalValue digits)

structure EncryptionParam where
  keyId : Option Bytes
  rsValue : Nat
  decodedSaltLen : Nat
  salt : Bytes
deriving DecidableEq, Repr

def aesgcmMinRs : Nat := 3

-- The loop over the pairs of the first parameter of the Encryption header.
def encryptionLoop (overflow : Bytes → UInt32) (saltLen : Nat) :
    HeaderParam → EncryptionParam → Except EceError EncryptionParam
  | [], param => .ok param
  | pair :: rest, param =>
      if pair.hasName (ascii "keyid") then
        if param.keyId.isSome then .error .invalidEncryptionHeader
        else encryptionLoop overflow saltLen rest { param with keyId := some pair.value }
      else if pair.hasName (ascii "rs") then
        if param.rsValue ≠ 0 then .error .invalidEncryptionHeader
        else
          match scanU32 overflow pair.value with
          | none => .error .invalidRs
          | some rsValue =>
              if rsValue < aesgcmMinRs then .error .invalidRs
              else encryptionLoop overflow saltLen rest { param with rsValue }
      else if pair.hasName (ascii "salt") then
        if param.decodedSaltLen ≠ 0 then .error .invalidEncryptionHeader
        else
          let (decodedSaltLen, salt) := eceBase64urlDecode pair.value .ignorePadding saltLen
          if decodedSaltLen = 0 then .ok { param with decodedSaltLen, salt }
          else encryptionLoop overflow saltLen rest { param with decodedSaltLen, salt }
      else encryptionLoop overflow saltLen rest param

def keyIdMatches (keyId : Bytes) (param : HeaderParam) : Bool :=
  param.any fun pair => pair.hasName (ascii "keyid") && pair.hasValue keyId

-- The second half: the "dh" of the parameter with a matching key id, or of the first parameter.
def senderPubKeyFrom (keyId : Option Bytes) (cryptoKeyHeader : Bytes) (rawSenderPubKeyLen : Nat) : Except EceError Bytes :=
  match headerExtractParams cryptoKeyHeader with
  | none => .error .invalidCryptoKeyHeader
  | some cryptoKeyParams =>
      let cryptoKeyParam :=
        match keyId with
        | none => cryptoKeyParams.head?
        | some keyId => cryptoKeyParams.find? (keyIdMatches keyId)
      match cryptoKeyParam with
      | none => .error .invalidDh
      | some pairs =>
          let (decodedKeyLen, rawSenderPubKey) :=
            match pairs.find? (·.hasName (ascii "dh")) with
            | none => (0, [])
            | some pair => eceBase64urlDecode pair.value .ignorePadding rawSenderPubKeyLen
          if decodedKeyLen ≠ rawSenderPubKeyLen then .error .invalidDh else .ok rawSenderPubKey

structure WebpushParams where
  salt : Bytes
  rawSenderPubKey : Bytes
  rs : Nat
deriving DecidableEq, Repr

-- ece_webpush_aesgcm_headers_extract_params
def headersExtractParams (overflow : Bytes → UInt32) (cryptoKeyHeader encryptionHeader : Bytes)
    (saltLen rawSenderPubKeyLen : Nat) : Except EceError WebpushParams :=
  match headerExtractParams encryptionHeader with
  | none => .error .invalidEncryptionHeader
  | some encryptionParams =>
      match encryptionLoop overflow saltLen (encryptionParams.headD []) ⟨none, 0, 0, []⟩ with
      | .error error => .error error
      | .ok param =>
          if param.decodedSaltLen ≠ saltLen then .error .invalidSalt
          else
            match senderPubKeyFrom param.keyId cryptoKeyHeader rawSenderPubKeyLen with
            | .error error => .error error
            | .ok rawSenderPubKey =>
                .ok ⟨param.salt, rawSenderPubKey, if param.rsValue = 0 then 4096 else param.rsValue⟩

structure WebpushHeaders where
  cryptoKey : Bytes
  encryption : Bytes
deriving DecidableEq, Repr

-- ece_webpush_aesgcm_headers_from_params with output buffers of the lengths it asks for.
def headersFromParams (salt rawSenderPubKey : Bytes) (rs : UInt32) : Except EceError WebpushHeaders :=
  if rawSenderPubKey = [] then .error .invalidDh
  else if salt = [] then .error .invalidSalt
  else .ok
    { cryptoKey := ascii "dh=" ++ eceBase64urlEncode rawSenderPubKey
      encryption := ascii "rs=" ++ decimal rs.toNat ++ ascii ";salt=" ++ eceBase64urlEncode salt }

end PushReceiver
