import GrassWorker.Domain.SourceCredentials
import GrassWorker.Foundations.IpAddr

/-! The endpoints of repository URLs, and which credentials are for them. URLs with a scheme and host names are parsed
by another package. -/
namespace GrassWorker.GitSource
open SourceCredentials Validator

inductive GitTransport
  | http | https | ssh | git
deriving DecidableEq

structure RepositoryEndpoint where
  transport : GitTransport
  host : Text
  port : Nat
  path : Text
  username : Option Text
  scpLike : Bool
deriving DecidableEq

inductive RepositoryUrlError
  | invalid | unsupportedTransport | embeddedCredential
deriving DecidableEq

def RepositoryUrlError.message : RepositoryUrlError → String
  | invalid => "repository URL is invalid"
  | unsupportedTransport => "repository transport is not supported"
  | embeddedCredential => "credentials must not be embedded in repository URLs"

structure ParsedUrl where
  scheme : Text
  username : Text
  password : Option Text
  host : Option Text
  port : Option Nat
  path : Text
  query : Option Text
  fragment : Option Text

inductive UrlHost
  | domain (domain : Text)
  | address (address : IpAddr)

structure UrlLibrary where
  parseUrl : Text → Option ParsedUrl
  parseHost : Text → Option UrlHost

def isControl (c : Char) : Bool := c.toNat < 0x20 ∨ 0x7f ≤ c.toNat ∧ c.toNat < 0xa0

def isAsciiAlphabetic (c : Char) : Bool := 65 ≤ c.toNat ∧ c.toNat ≤ 90 ∨ 97 ≤ c.toNat ∧ c.toNat ≤ 122

def normalizeSshUsername (value : Text) : Except RepositoryUrlError Text :=
  if value = [] ∨ value.head? = some '-' ∨ ¬value.all (fun c => isAsciiAlphanumeric c || "._-".toList.contains c) then
    .error .invalid
  else .ok value

def splitOnce (separator : Text) : Text → Option (Text × Text)
  | [] => none
  | c :: rest =>
    if separator <+: c :: rest then some ([],(c :: rest).drop separator.length)
    else (splitOnce separator rest).map fun parts => (c :: parts.1,parts.2)

def rsplitAt (value : Text) : Option (Text × Text) :=
  if '@' ∈ value then some ((value.rdropWhile (· ≠ '@')).dropLast,value.rtakeWhile (· ≠ '@')) else none

def isDrivePath : Text → Bool
  | first :: second :: third :: _ => isAsciiAlphabetic first ∧ second = ':' ∧ (third = '/' ∨ third = '\\')
  | _ => false

section Parse
variable (library : UrlLibrary)

def normalizeHost (value : Text) : Except RepositoryUrlError Text :=
  let value := trimEnd '.' value
  if value = [] ∨ value.head? = some '-' ∨ value.any isWhitespace then .error .invalid
  else
    match IpAddr.parse value with
    | some address => .ok (IpAddr.print address)
    | none =>
      match library.parseHost value with
      | none => .error .invalid
      | some (.domain domain) => .ok (domain.map toAsciiLowercase)
      | some (.address address) => .ok (IpAddr.print address)

/-- What is before the delimiter, and what is after it. An address in brackets keeps its colons. -/
def scpParts (value : Text) : Option (Text × Text) :=
  if value.head? = some '[' ∨ (splitOnce ['@','['] value).isSome then
    (splitOnce [']',':'] value).map fun parts => (parts.1 ++ [']'],parts.2)
  else splitOnce [':'] value

def withoutBrackets (host : Text) : Text :=
  if host.head? = some '[' ∧ host.tail.getLast? = some ']' then host.tail.dropLast else host

def parseScpLike (value : Text) : Except RepositoryUrlError RepositoryEndpoint :=
  if value.head? = some '-' ∨ isDrivePath value then .error .invalid
  else
    match scpParts value with
    | none => .error .invalid
    | some (authority,path) =>
      if authority = [] ∨ path = [] ∨ path.head? = some ':' ∨ path.any (fun c => isControl c || isWhitespace c) then
        .error .invalid
      else do
        let (username,rawHost) ← match rsplitAt authority with
          | some (username,host) => do
            let username ← normalizeSshUsername username
            pure (some username,host)
          | none => pure (none,authority)
        let host ← normalizeHost library (withoutBrackets rawHost)
        return { transport := .ssh, host, port := 22, path, username, scpLike := true }

def transportOf (scheme : Text) : Option GitTransport :=
  if scheme = "http".toList then some .http
  else if scheme = "https".toList then some .https
  else if scheme = "ssh".toList then some .ssh
  else if scheme = "git".toList then some .git
  else none

def GitTransport.defaultPort : GitTransport → Nat
  | http => 80
  | https => 443
  | ssh => 22
  | git => 9418

def parseRepositoryUrl (value : Text) : Except RepositoryUrlError RepositoryEndpoint :=
  if value = [] ∨ trim value ≠ value ∨ value.any isControl then .error .invalid
  else if splitOnce "://".toList value = none then parseScpLike library value
  else
    match library.parseUrl value with
    | none => .error .invalid
    | some parsed =>
      match transportOf parsed.scheme with
      | none => .error .unsupportedTransport
      | some transport =>
        if parsed.fragment.isSome ∨ parsed.query.isSome then .error .invalid
        else if parsed.password.isSome ∨ parsed.username ≠ [] ∧ transport ≠ .ssh then .error .embeddedCredential
        else
          match parsed.host with
          | none => .error .invalid
          | some rawHost => do
            let host ← normalizeHost library rawHost
            let port := parsed.port.getD transport.defaultPort
            if port = 0 ∨ parsed.path = [] ∨ parsed.path = ['/'] then throw .invalid
            let username ← if parsed.username = [] then pure none else (normalizeSshUsername parsed.username).map some
            return { transport, host, port, path := parsed.path, username, scpLike := false }

end Parse

/-! Credentials. -/

def kindMatches : SourceCredentialKind → GitTransport → Bool
  | .https,.https | .ssh,.ssh => true
  | _,_ => false

def eqIgnoreAsciiCase (first second : Text) : Bool := first.map toAsciiLowercase = second.map toAsciiLowercase

def endpointMatches (credential : SourceCredential) (endpoint : RepositoryEndpoint) : Bool :=
  kindMatches credential.kind endpoint.transport && eqIgnoreAsciiCase credential.host endpoint.host &&
    credential.port = endpoint.port

def matchesRepositoryUrl (library : UrlLibrary) (credential : SourceCredential) (repositoryUrl : Text) : Bool :=
  match parseRepositoryUrl library repositoryUrl with
  | .ok endpoint => endpointMatches credential endpoint
  | .error _ => false

def sameEndpoint (first second : SourceCredential) : Prop :=
  first.kind = second.kind ∧ first.host = second.host ∧ first.port = second.port

theorem matches_of_sameEndpoint {library : UrlLibrary} {first second : SourceCredential} (same : sameEndpoint first second)
    (repositoryUrl : Text) : matchesRepositoryUrl library first repositoryUrl = matchesRepositoryUrl library second repositoryUrl := by
  obtain ⟨kind,host,port⟩ := same
  unfold matchesRepositoryUrl endpointMatches
  rw [kind,host,port]

end GrassWorker.GitSource
