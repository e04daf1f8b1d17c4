import Provenance.Text.Scan

/-!
Contract: the location that a remote URL names.

Owns: `canonical`, the `host/path` form of a URL.

Does **not** own: reading the URL from version control, and joining a directory
to the location.
-/

set_option autoImplicit false

namespace Provenance.Remote

open Text (afterFirst replaceFirst dropEnding)

/-- The text after the transport: everything after the first `://`. -/
def withoutTransport (url : List Char) : List Char :=
  afterFirst [':', '/', '/'] url

/-- The text after the user: everything after the first `@`. -/
def withoutUser (url : List Char) : List Char :=
  afterFirst ['@'] url

/-- The `host/path` form of a URL.

Transport and user are dropped, the first `:` becomes a `/`, and one `.git` at
the end is dropped. -/
def canonicalCharacters (url : List Char) : List Char :=
  dropEnding ['.', 'g', 'i', 't'] (replaceFirst ':' '/' (withoutUser (withoutTransport url)))

/-- The `host/path` form of a URL. -/
def canonical (url : String) : String :=
  String.ofList (canonicalCharacters url.toList)

end Provenance.Remote
