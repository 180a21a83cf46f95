/-
**Rewriting the paths of language server messages.**

A language server runs on the host and knows the remote root; the editor knows the local mirror.
The sidecar rewrites paths and file URIs in the messages between them, from one root to the other.

Roots are in the POSIX or in the Windows style.  A path is cut behind the old root at a segment
boundary and joined to the new one; a URI is matched in the percent-encoded and in the literal
spelling of the old root.

Main definitions:

* `Sidecar.Lsp.PathStyle`, `Sidecar.Lsp.pathStyle` — the two styles;
* `Sidecar.Lsp.stripPathPrefixWithBoundary`, `Sidecar.Lsp.joinRewrittenPath`,
  `Sidecar.Lsp.rewriteLspPath`;
* `Sidecar.Lsp.strictPercentDecode`, `Sidecar.Lsp.percentEncodeUriPath` — percent encoding;
* `Sidecar.Lsp.stripUriPrefixWithBoundary`, `Sidecar.Lsp.rewriteLspUri`.
-/

import RemoteMirror.TextSlice

namespace RemoteMirror.Sidecar.Lsp

open TextSlice

abbrev Text := List Char

/-! ### Path styles -/

inductive PathStyle
  | posix
  | windows
  deriving DecidableEq, Repr

/-- `path_style`.  The three bytes are ASCII, so they are the first three characters. -/
def pathStyle : Text → PathStyle
  | drive :: colon :: slash :: _ =>
    if drive.isAlpha && colon = ':' && (slash = '/' || slash = '\\') then .windows else .posix
  | _ => .posix

/-- `path_separators`. -/
def pathSeparator : PathStyle → Char → Bool
  | .posix, c => c = '/'
  | .windows, c => c = '/' || c = '\\'

def traversalPathStyle (fromStyle toStyle : PathStyle) : PathStyle :=
  if fromStyle = .windows ∨ toStyle = .windows then .windows else .posix

/-! ### Bytes -/

/-- `b'c'` for an ASCII character. -/
def byte (c : Char) : UInt8 := c.toNat.toUInt8

def toAsciiLowercase (b : UInt8) : UInt8 := if byte 'A' ≤ b ∧ b ≤ byte 'Z' then b + 32 else b

def eqIgnoreAsciiCase (a b : UInt8) : Bool := toAsciiLowercase a = toAsciiLowercase b

def isSlash (b : UInt8) : Bool := b = byte '/' || b = byte '\\'

def decodeHexDigit (b : UInt8) : Option UInt8 :=
  if byte '0' ≤ b ∧ b ≤ byte '9' then some (b - byte '0')
  else if byte 'a' ≤ b ∧ b ≤ byte 'f' then some (b - byte 'a' + 10)
  else if byte 'A' ≤ b ∧ b ≤ byte 'F' then some (b - byte 'A' + 10)
  else none

def strictPercentDecode : List UInt8 → Option (List UInt8)
  | [] => some []
  | b :: rest =>
    if b ≠ byte '%' then (strictPercentDecode rest).map (b :: ·)
    else
      match rest with
      | h :: l :: rest =>
        match decodeHexDigit h, decodeHexDigit l with
        | some high, some low => (strictPercentDecode rest).map ((high <<< 4 ||| low) :: ·)
        | _, _ => none
      | _ => none

def upperHexDigit (n : ℕ) : Char := if n < 10 then Char.ofNat (48 + n) else Char.ofNat (55 + n)

/-- The bytes that `percent_encode_uri_path` leaves as they are. -/
def unreserved (b : UInt8) : Bool :=
  (byte 'A' ≤ b && b ≤ byte 'Z') || (byte 'a' ≤ b && b ≤ byte 'z') ||
    (byte '0' ≤ b && b ≤ byte '9') ||
    b = byte '/' || b = byte ':' || b = byte '-' || b = byte '_' || b = byte '.' || b = byte '~'

def percentEncodeByte (b : UInt8) : Text :=
  if unreserved b then [Char.ofNat b.toNat]
  else ['%', upperHexDigit (b.toNat / 16), upperHexDigit (b.toNat % 16)]

def percentEncodeUriPath (path : Text) : Text := (utf8 path).flatMap percentEncodeByte

/-! ### Paths -/

def windowsPathPrefixEq (candidate pre : Text) : Bool :=
  (((utf8 candidate).zip (utf8 pre)).zipIdx).all fun ((left, right), index) =>
    if isSlash left && isSlash right then true
    else if index = 0 ∧ (utf8 pre)[1]? = some (byte ':') then eqIgnoreAsciiCase left right
    else left = right

def stripPathPrefixWithBoundary (text pre : Text) (style : PathStyle) : Option Text :=
  match splitBytes (byteLen pre) text with
  | none => none
  | some (candidate, suffix) =>
    let isMatch := match style with
      | .posix => decide (candidate = pre)
      | .windows => windowsPathPrefixEq candidate pre
    if !isMatch then none
    else if suffix.isEmpty || pre.getLast?.any (pathSeparator style) then some suffix
    else if suffix.head?.any (pathSeparator style) then some suffix
    else none

/-- A segment that is `.` or `..`. -/
def isDotSegment (segment : Text) : Bool := segment = ['.'] || segment = ['.', '.']

def pathHasNoDotSegments (path : Text) (style : PathStyle) : Bool :=
  !(path.splitOnP (pathSeparator style)).any isDotSegment

/-- The separator that goes into a path below the new root. -/
def targetSeparator (toPre : Text) : Char :=
  match pathStyle toPre with
  | .posix => '/'
  | .windows => if (utf8 toPre)[2]? = some (byte '\\') then '\\' else '/'

def joinRewrittenPath (toPre suffix : Text) (fromStyle : PathStyle) : Text :=
  if suffix.isEmpty then toPre
  else
    let separator := targetSeparator toPre
    let relative := suffix.dropWhile (pathSeparator fromStyle)
    let normalized := relative.map fun c => if pathSeparator fromStyle c then separator else c
    let base := toPre.rdropWhile (pathSeparator .windows)
    if base.isEmpty && toPre.head? = some '/' then '/' :: normalized
    else base ++ separator :: normalized

def rewriteLspPath (text fromPre toPre : Text) : Option Text :=
  let fromStyle := pathStyle fromPre
  match stripPathPrefixWithBoundary text fromPre fromStyle with
  | none => none
  | some suffix =>
    if !pathHasNoDotSegments suffix (traversalPathStyle fromStyle (pathStyle toPre)) then none
    else some (joinRewrittenPath toPre suffix fromStyle)

/-! ### File URIs -/

/-- The characters that end the path of a URI. -/
def endsUriPath (c : Char) : Bool := c = '?' || c = '#'

def uriPathSeparator (style : PathStyle) (b : UInt8) : Bool :=
  b = byte '/' || (style = .windows && b = byte '\\')

def isDotBytes (segment : List UInt8) : Bool :=
  segment = [byte '.'] || segment = [byte '.', byte '.']

def uriSuffixHasNoDotSegments (suffix : Text) (style : PathStyle) : Bool :=
  match strictPercentDecode (utf8 (suffix.takeWhile fun c => !endsUriPath c)) with
  | some decoded => !(decoded.splitOnP (uriPathSeparator style)).any isDotBytes
  | none => false

/-- The loop of `uri_prefix_eq` over bytes of the same number; `index` counts them. -/
def uriPrefixEqFrom (driveIndex : Option ℕ) : ℕ → List UInt8 → List UInt8 → Bool
  | index, c :: cs, p :: ps =>
    if p = byte '%' then
      match cs, ps with
      | c₁ :: c₂ :: cs, p₁ :: p₂ :: ps =>
        c = byte '%' && decodeHexDigit c₁ = decodeHexDigit p₁ &&
          decodeHexDigit c₂ = decodeHexDigit p₂ && uriPrefixEqFrom driveIndex (index + 3) cs ps
      | c₁ :: _, p₁ :: _ => c = byte '%' && decodeHexDigit c₁ = decodeHexDigit p₁
      | _, _ => c = byte '%'
    else
      (if index < 7 ∨ driveIndex = some index then eqIgnoreAsciiCase c p else c = p) &&
        uriPrefixEqFrom driveIndex (index + 1) cs ps
  | _, _, _ => true

/-- `file://`. -/
def fileScheme : Text := ['f', 'i', 'l', 'e', ':', '/', '/']

def uriPrefixEq (candidate pre : Text) (style : PathStyle) : Bool :=
  let driveIndex :=
    if style = .windows ∧ (utf8 (fileScheme ++ ['/'])).isPrefixOf (utf8 pre) ∧
        (utf8 pre)[9]? = some (byte ':') then some 8 else none
  byteLen candidate = byteLen pre && uriPrefixEqFrom driveIndex 0 (utf8 candidate) (utf8 pre)

def stripUriPrefixWithBoundary (text pre : Text) (style : PathStyle) : Option Text :=
  match splitBytes (byteLen pre) text with
  | none => none
  | some (candidate, suffix) =>
    if !uriPrefixEq candidate pre style then none
    else if suffix.isEmpty || pre.getLast? = some '/' ||
        suffix.head?.any (fun c => c = '/' || endsUriPath c) then some suffix
    else none

def fileUriPath (path : Text) : Text :=
  match pathStyle path with
  | .windows => '/' :: path.map fun c => if c = '\\' then '/' else c
  | .posix => path

/-- The literal and the percent-encoded spelling of a root. -/
def literalUri (path : Text) : Text := fileScheme ++ fileUriPath path

def encodedUri (path : Text) : Text := fileScheme ++ percentEncodeUriPath (fileUriPath path)

def pathToFileUriPrefixPairs (fromPre toPre : Text) : List (Text × Text) :=
  let literal := (literalUri fromPre, literalUri toPre)
  let encoded := (encodedUri fromPre, encodedUri toPre)
  if encoded ≠ literal then [encoded, literal] else [literal]

/-- The rewritten URI for a suffix that was found behind the old root. -/
def joinRewrittenUri (fromUri toUri suffix : Text) : Text :=
  let separator : Text :=
    if fromUri.getLast? = some '/' ∧ toUri.getLast? ≠ some '/' ∧ suffix ≠ [] ∧
        ¬ suffix.head?.any endsUriPath then ['/'] else []
  toUri ++ separator ++ suffix

/-- The loop of `rewrite_lsp_uri` over the spellings: the first that matches decides. -/
def rewriteFirst (text : Text) (fromStyle toStyle : PathStyle) : List (Text × Text) → Option Text
  | [] => none
  | (fromUri, toUri) :: pairs =>
    match stripUriPrefixWithBoundary text fromUri fromStyle with
    | some suffix =>
      if !uriSuffixHasNoDotSegments suffix (traversalPathStyle fromStyle toStyle) then none
      else some (joinRewrittenUri fromUri toUri suffix)
    | none => rewriteFirst text fromStyle toStyle pairs

def rewriteLspUri (text fromPre toPre : Text) : Option Text :=
  if text.any isWhitespace then none
  else rewriteFirst text (pathStyle fromPre) (pathStyle toPre)
    (pathToFileUriPrefixPairs fromPre toPre)

end RemoteMirror.Sidecar.Lsp
