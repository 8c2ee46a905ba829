/-!
URIs, as request targets and as addresses.  `Uri.parse?` reads a path alone, an authority alone, or a scheme,
an authority and then a path and a query; what follows a `#` is dropped.  `Uri.write` writes it again, with a
`/` for an empty path after an authority that has a scheme.
-/

namespace ProofRelay.Http

/-- How an address is reached. -/
inductive Scheme
  | http
  | https
  | other (name : String)
deriving DecidableEq, Repr

/-- The text of a scheme. -/
def Scheme.write : Scheme → String
  | .http => "http"
  | .https => "https"
  | .other name => name

structure Uri where
  scheme : Option Scheme
  authority : Option String
  path : String
  query : Option String
deriving DecidableEq, Repr

namespace Uri

/-! ## Characters -/

/-- Whether a character may stand in a scheme. -/
def isSchemeChar (c : Char) : Bool := c.isAlphanum || "+-.~".contains c

/-- Whether a character may stand anywhere in an authority. -/
def isAuthorityChar (c : Char) : Bool := c.isAlphanum || "!$&'()*+,-.:;=@[]_~".contains c

/-- Whether a character may stand in a path. -/
def isPathChar (c : Char) : Bool :=
  c = '!' || c = '"' || '$' ≤ c && c ≤ ';' || c = '=' || '@' ≤ c && c ≤ '_' || 'a' ≤ c

/-- Whether a character may stand in a query. -/
def isQueryChar (c : Char) : Bool :=
  c = '!' || '$' ≤ c && c ≤ ';' || c = '=' || '?' ≤ c

/-- Whether a character ends an authority. -/
def endsAuthority (c : Char) : Bool := c = '/' || c = '?' || c = '#'

/-- Whether a character ends a path. -/
def endsPath (c : Char) : Bool := c = '?' || c = '#'

/-! ## Reading -/

/-- The most bytes of a URI. -/
def greatestLength : Nat := 65534

/-- The most characters of a scheme. -/
def greatestSchemeLength : Nat := 64

/-- The most colons before an `@` or a `]`. -/
def greatestColons : Nat := 8

/-- What is after `mark`, if a text begins with it in any case of letters. -/
def afterMark (mark : String) (cs : List Char) : Option (List Char) :=
  if (cs.take mark.length).map Char.toLower = mark.toList then some (cs.drop mark.length) else none

/-- Takes the scheme off the front, if there is one; none if it is too long. -/
def splitScheme (cs : List Char) : Option (Option Scheme × List Char) :=
  match afterMark "http://" cs, afterMark "https://" cs with
  | some rest, _ => some (some .http, rest)
  | none, some rest => some (some .https, rest)
  | none, none =>
    let name := cs.takeWhile isSchemeChar
    match cs.drop name.length with
    | ':' :: '/' :: '/' :: rest =>
      if greatestSchemeLength < name.length then none
      else some (some (.other (String.ofList name)), rest)
    | _ => some (none, cs)

/-- What has been seen of an authority: the colons, and whether there was a percent sign, since the last `@` or
`]`; the brackets; and whether an `@` was the last character. -/
structure Seen where
  colons : Nat := 0
  percent : Bool := false
  opened : Bool := false
  closed : Bool := false
  atLast : Bool := false
deriving DecidableEq, Repr

/-- Sees one more character, if it may stand there. -/
def Seen.push? (s : Seen) (c : Char) : Option Seen :=
  let s := { s with atLast := false }
  match c with
  | ':' => if s.colons < greatestColons then some { s with colons := s.colons + 1 } else none
  | '[' => if s.percent || s.opened then none else some { s with opened := true }
  | ']' =>
    if !s.opened || s.closed then none
    else some { s with closed := true, colons := 0, percent := false }
  | '@' => some { s with colons := 0, percent := false, atLast := true }
  | '%' => some { s with percent := true }
  | c => if isAuthorityChar c then some s else none

/-- Whether an authority may end here. -/
def Seen.isComplete (s : Seen) : Bool :=
  s.opened = s.closed && s.colons ≤ 1 && !s.atLast && !s.percent

/-- Whether a text is an authority.  It may be empty. -/
def isAuthority (cs : List Char) : Bool :=
  match cs.foldlM Seen.push? {} with
  | some s => s.isComplete
  | none => false

/-- Reads a path and a query; an empty path is `/`. -/
def pathAndQuery? (cs : List Char) : Option (String × Option String) :=
  let path := cs.takeWhile (!endsPath ·)
  let written := if path.isEmpty then "/" else String.ofList path
  if !path.all isPathChar then none
  else match cs.drop path.length with
    | '?' :: rest =>
      let query := rest.takeWhile (· ≠ '#')
      if query.all isQueryChar then some (written, some (String.ofList query)) else none
    | _ => some (written, none)

/-- Reads a URI. -/
def parse? (s : String) : Option Uri :=
  let cs := s.toList
  if greatestLength < s.utf8ByteSize then none
  else match cs with
    | [] => none
    | ['*'] => some ⟨none, none, "*", none⟩
    | '/' :: _ => (pathAndQuery? cs).map fun (path, query) => ⟨none, none, path, query⟩
    | _ => do
      let (scheme, rest) ← splitScheme cs
      let authority := rest.takeWhile (!endsAuthority ·)
      let after := rest.drop authority.length
      if !isAuthority authority then none
      else match scheme with
        | none => if after.isEmpty then some ⟨none, some (String.ofList authority), "", none⟩ else none
        | some scheme =>
          if authority.isEmpty then none
          else do
            let (path, query) ← pathAndQuery? after
            some ⟨some scheme, some (String.ofList authority), path, query⟩

/-! ## Writing -/

/-- The path and the query, as a request line has them. -/
def target (u : Uri) : String :=
  u.path ++ (match u.query with
    | none => ""
    | some q => "?" ++ q)

/-- The number that a scheme's sockets have if an authority names none. -/
def usualNumber : Option Scheme → String
  | some .http => ":80"
  | some .https => ":443"
  | _ => ""

/-- The host with its number, which is left out if it is the usual one. -/
def hostText (u : Uri) : String :=
  let host := ((u.authority.getD "").toList.reverse.takeWhile (· ≠ '@')).reverse
  let usual := (usualNumber u.scheme).toList
  String.ofList (if usual.isSuffixOf host then host.take (host.length - usual.length) else host)

/-- The text of a URI. -/
def write (u : Uri) : String :=
  (match u.scheme with
    | none => ""
    | some s => s.write ++ "://") ++ u.authority.getD "" ++ u.target

end Uri
end ProofRelay.Http
