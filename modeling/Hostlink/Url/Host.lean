import Hostlink.Text.Component
import Hostlink.Text.Parts

/-!
# Hosts of URLs

The authority of a URL names a host, or gives its address.

* `Host.ofSpecial` — the host of a web or file URL: a domain or an address of either kind;
* `Host.ofOther` — the host of any other URL: a text that is not looked into, or an address;
* `isAddress4?`, `isAddress6` — the two kinds of addresses.

Only a name is kept, since nothing asks for an address.
-/

namespace Hostlink.Url

/-- Why a text is no URL. -/
inductive Fault where
  | relative
  | emptyHost
  | invalidPort
  | invalidAddress4
  | invalidAddress6
  | invalidDomain
  | invalidHostCharacter
  deriving DecidableEq, Repr

/-- The wording of a fault. -/
def Fault.message : Fault → String
  | .relative => "relative URL without a base"
  | .emptyHost => "empty host"
  | .invalidPort => "invalid port number"
  | .invalidAddress4 => "invalid IPv4 address"
  | .invalidAddress6 => "invalid IPv6 address"
  | .invalidDomain => "invalid international domain name"
  | .invalidHostCharacter => "invalid domain character"

/-- The host of a URL. -/
inductive Host where
  | name (s : String)
  | address
  deriving DecidableEq, Repr

/-! ## Numerals -/

/-- The number that digits of a base spell; `none` if one is no digit of it. -/
def numeral? (base : Nat) (digits : List Char) : Option Nat :=
  digits.foldlM (fun n c =>
    match Percent.hexValue? (UInt8.ofNat c.toNat) with
    | some d => if c.toNat < 128 ∧ d < base then some (n * base + d) else none
    | none => none) 0

/-! ## Addresses of 32 bits -/

/-- A part of an address: decimal, octal after `0`, hexadecimal after `0x`. -/
def part4? : List Char → Option Nat
  | [] => none
  | '0' :: 'x' :: digits => numeral? 16 digits
  | '0' :: 'X' :: digits => numeral? 16 digits
  | '0' :: d :: digits => numeral? 8 (d :: digits)
  | digits => numeral? 10 digits

/-- The last part of a name, before one final point. -/
def lastPart (name : List Char) : List Char :=
  match (Text.splitWhere (· = '.') name).reverse with
  | [] :: part :: _ => part
  | part :: _ => part
  | [] => []

/-- A name whose last part is a number has to be an address. -/
def endsInNumber (name : List Char) : Bool :=
  let last := lastPart name
  (!last.isEmpty && last.all Char.isDigit) || (part4? last).isSome

/-- Are these the numbers of an address? The last fills what the others leave of 32 bits. -/
def isAddress4Of : Nat → List Nat → Bool
  | _, [] => false
  | left, [n] => n < Nat.pow 256 left
  | left, n :: rest => n < 256 && isAddress4Of (left - 1) rest

/-- Is a name an address of up to four parts? -/
def isAddress4 (name : List Char) : Bool :=
  let parts := Text.splitWhere (· = '.') name
  let parts := if parts.getLast? = some [] then parts.dropLast else parts
  match parts.mapM part4? with
  | some ns => ns.length ≤ 4 && isAddress4Of 4 ns
  | none => false

/-! ## Addresses of 128 bits -/

/-- A decimal number below 256 without a leading zero. -/
def isOctet (digits : List Char) : Bool :=
  match digits with
  | [] => false
  | '0' :: _ :: _ => false
  | _ => match numeral? 10 digits with
    | some n => n < 256
    | none => false

/-- How many groups of 16 bits a part stands for: one for up to four hexadecimal digits, two for
four octets, which may stand only at the end; none for anything else. -/
def groups6 (last : Bool) (part : List Char) : Option Nat :=
  if (1 ≤ part.length ∧ part.length ≤ 4) ∧ (numeral? 16 part).isSome then some 1
  else
    let octets := Text.splitWhere (· = '.') part
    if last ∧ octets.length = 4 ∧ octets.all isOctet then some 2 else none

/-- Counts the groups of parts between colons. -/
def countGroups : List (List Char) → Option Nat
  | [] => some 0
  | part :: rest => do
    let n ← groups6 rest.isEmpty part
    let m ← countGroups rest
    some (n + m)

/-- The parts before and after the first empty part. -/
def splitGap : List (List Char) → Option (List (List Char) × List (List Char))
  | [] => none
  | [] :: rest => some ([], rest)
  | part :: rest => (splitGap rest).map fun (before, after) => (part :: before, after)

/-- Removes the empty part that a gap at the start adds. -/
def dropOpening : List (List Char) → List (List Char)
  | [] :: [] :: part :: rest => [] :: part :: rest
  | parts => parts

/-- Is this an address of eight groups, of which two colons may stand for one or more? -/
def isAddress6 (text : List Char) : Bool :=
  let parts := Text.splitWhere (· = ':') text
  let opened := dropOpening parts
  match splitGap opened with
  | none => countGroups parts = some 8
  | some (before, after) =>
    let begins := !before.isEmpty || opened.length < parts.length
    let closing := match after with
      | [] => none
      | [[]] => some []
      | part :: rest => some (part :: rest)
    match closing with
    | none => false
    | some after =>
      match before.mapM (groups6 false), countGroups after with
      | some ns, some m => begins && ns.length + m < 8
      | _, _ => false

/-! ## Hosts -/

/-- An address in brackets. -/
def Host.ofBrackets (text : List Char) : Except Fault Host :=
  if text.getLast? = some ']' ∧ isAddress6 (text.drop 1).dropLast then .ok .address
  else .error .invalidAddress6

/-- Characters that no domain has, besides control characters. -/
def notInDomain : List Char := " %#/:<>?@[\\]^|".toList

/-- The host of a web or file URL, whose name is a domain of any case. -/
def Host.ofSpecial (text : List Char) : Except Fault Host :=
  if text.head? = some '[' then Host.ofBrackets text
  else
    match Utf8.decode (Percent.decode (Utf8.encode (String.ofList text))) with
    | .error _ => .error .invalidDomain
    | .ok domain =>
      if domain.toList.any (fun c => c.toNat < 32 || c.toNat = 127 || notInDomain.contains c) then
        .error .invalidDomain
      else
        let domain := domain.toList.map Char.toLower
        if endsInNumber domain then
          if isAddress4 domain then .ok .address else .error .invalidAddress4
        else .ok (.name (String.ofList domain))

/-- Characters that no host has. -/
def notInHost : List Char := "\x00\t\n\r #/:<>?@[\\]^|".toList

/-- Octets that a name of any other URL holds as they are. -/
def isPlainOctet (b : UInt8) : Bool := 32 ≤ b && b < 127

/-- The host of any other URL. -/
def Host.ofOther (text : List Char) : Except Fault Host :=
  if text.head? = some '[' then Host.ofBrackets text
  else if text.any notInHost.contains then .error .invalidHostCharacter
  else .ok (.name (String.ofList
    (Percent.encodeOctets isPlainOctet (Utf8.encode (String.ofList text)))))

end Hostlink.Url
