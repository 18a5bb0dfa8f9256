/-
  File:      Helpdesk/Notifications/Rendering.lean
  Subject:   The template renderer (apps/api/app/notifications/rendering.py).

  A template is read once from left to right: at each place either the pattern
  `_TOKEN` matches, and its variable is one segment, or the character there is
  one. `findall` and `sub` see the same segments, since `sub` does not look at
  what it has put in.
-/
import Helpdesk.Python.Text

namespace Helpdesk.Notifications

open Helpdesk.Python

/-! ## 1. Segments -/

/-- The two braces of the template syntax. -/
def openBrace : Char := Char.ofNat 0x7b

def closeBrace : Char := Char.ofNat 0x7d

inductive Segment where
  | char (c : Char)
  | token (name : String)
  deriving DecidableEq, Repr

/-- `[a-z]`. -/
def isLetter (c : Char) : Bool := 'a' ≤ c && c ≤ 'z'

/-- `[a-z0-9_]`. -/
def isNameChar (c : Char) : Bool := isLetter c || ('0' ≤ c && c ≤ '9') || c = '_'

/-- `_TOKEN` at the head of a text: the name and what follows the match. No part of
    the pattern can match less than it does here. -/
def token? : List Char → Option (String × List Char)
  | a :: b :: rest =>
      if a = openBrace ∧ b = openBrace then
        let inner := rest.dropWhile isSpace
        let name := inner.takeWhile isNameChar
        match (inner.dropWhile isNameChar).dropWhile isSpace with
        | c :: d :: after =>
            if name.head?.any isLetter ∧ c = closeBrace ∧ d = closeBrace then
              some (String.ofList name, after)
            else none
        | _ => none
      else none
  | _ => none

/-- The segments of a text; the first argument bounds its length. -/
def segmentsFuel : Nat → List Char → List Segment
  | 0, _ => []
  | _ + 1, [] => []
  | n + 1, c :: cs =>
      match token? (c :: cs) with
      | some (name, rest) => .token name :: segmentsFuel n rest
      | none => .char c :: segmentsFuel n cs

def segments (template : String) : List Segment :=
  segmentsFuel template.toList.length template.toList

def Segment.name? : Segment → Option String
  | char _ => none
  | token name => some name

/-- What `_TOKEN.sub("", template)` leaves of a segment. -/
def Segment.literal : Segment → List Char
  | char c => [c]
  | token _ => []

/-! ## 2. `render_template` -/

inductive UnsafeTemplate where
  | executable
  | outsideAllowlist
  | malformed
  deriving DecidableEq, Repr

def UnsafeTemplate.message : UnsafeTemplate → String
  | executable => "Executable or unescaped template syntax is forbidden."
  | outsideAllowlist => "Template references a variable outside the allowlist."
  | malformed => "Template contains malformed variable syntax."

/-- `part in text`. -/
def isIn (part text : List Char) : Bool := text.tails.any part.isPrefixOf

/-- `_UNSAFE_SYNTAX`. -/
def unsafeSyntax : List (List Char) :=
  [[openBrace, '%'], ['%', closeBrace], ['$', openBrace],
   [openBrace, openBrace, openBrace], [closeBrace, closeBrace, closeBrace]]

/-- `html.escape(value, quote=True)` of one character. -/
def escapeChar (c : Char) : List Char :=
  if c = '&' then "&amp;".toList
  else if c = '<' then "&lt;".toList
  else if c = '>' then "&gt;".toList
  else if c = '"' then "&quot;".toList
  else if c = Char.ofNat 0x27 then "&#x27;".toList
  else [c]

/-- Line breaks become blanks. -/
def cleanChar (c : Char) : Char := if c = '\r' ∨ c = '\n' then ' ' else c

/-- What `replacement` puts in for a variable. -/
def replacement (values : String → Option String) (htmlContent : Bool) (name : String) :
    List Char :=
  let cleaned := ((values name).getD "").toList.map cleanChar
  if htmlContent then cleaned.flatMap escapeChar else cleaned

def Segment.render (values : String → Option String) (htmlContent : Bool) :
    Segment → List Char
  | char c => [c]
  | token name => replacement values htmlContent name

/-- `render_template`. -/
def renderTemplate (template : String) (values : String → Option String)
    (allowedVariables : List String) (htmlContent : Bool) : Except UnsafeTemplate String :=
  let parts := segments template
  let residual := parts.flatMap Segment.literal
  if unsafeSyntax.any fun marker => isIn marker template.toList then .error .executable
  else if ¬ (parts.filterMap Segment.name?).all allowedVariables.contains then
    .error .outsideAllowlist
  else if isIn [openBrace, openBrace] residual ∨ isIn [closeBrace, closeBrace] residual then
    .error .malformed
  else .ok (String.ofList (parts.flatMap (Segment.render values htmlContent)))

end Helpdesk.Notifications
