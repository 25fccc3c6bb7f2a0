import LogQuery.Json.Lexeme

/-!
JSON documents as far as they are well formed. A reader that looks for values of certain
shapes wants to know which comes first in the text, a value of the wrong shape or a
place where the text is no JSON. So a text that is cut short or goes wrong somewhere
still has a document: everything before that place, with the arrays and objects around
it left open.
-/

namespace LogQuery.Json

inductive Document
  | null
  | boolean (value : Bool)
  | number (numeral : Numeral)
  | string (contents : Option String)
  | array (items : List Document) (closed : Bool)
  | object (members : List (Option String × Document)) (closed : Bool)
  | malformed

namespace Document

def isWellFormed : Document → Bool
  | array _ closed => closed
  | object _ closed => closed
  | malformed => false
  | _ => true

def ofLexeme? : Lexeme → Option Document
  | .null => some null
  | .boolean value => some (boolean value)
  | .number numeral => some (number numeral)
  | .string contents => some (string contents)
  | _ => none

/-! ## Building

The arrays and objects that are open are kept from the inside out, each with its parts
in reverse. -/

inductive Frame
  | array (items : List Document)
  | object (members : List (Option String × Document))
  | member (members : List (Option String × Document)) (key : Option String)

inductive Expected
  | value
  | valueOrClose
  | key
  | keyOrClose
  | colon
  | commaOrClose

structure Builder where
  frames : List Frame
  expected : Expected

inductive Step
  | goOn (builder : Builder)
  | finished (document : Document)
  | stuck

namespace Builder

def start : Builder :=
  { frames := [], expected := .value }

def attach (value : Document) : List Frame → Step
  | [] => .finished value
  | .array items :: frames =>
      .goOn { frames := .array (value :: items) :: frames, expected := .commaOrClose }
  | .member members key :: frames =>
      .goOn
        { frames := .object ((key, value) :: members) :: frames,
          expected := .commaOrClose }
  | .object _ :: _ => .stuck

def beginValue (frames : List Frame) : Lexeme → Step
  | .openArray => .goOn { frames := .array [] :: frames, expected := .valueOrClose }
  | .openObject => .goOn { frames := .object [] :: frames, expected := .keyOrClose }
  | lexeme =>
      match ofLexeme? lexeme with
      | some value => attach value frames
      | none => .stuck

def continueAfterValue (frames : List Frame) (lexeme : Lexeme) : Step :=
  match frames, lexeme with
  | .array items :: rest, .closeArray => attach (array items.reverse true) rest
  | .object members :: rest, .closeObject => attach (object members.reverse true) rest
  | .array _ :: _, .comma => .goOn { frames, expected := .value }
  | .object _ :: _, .comma => .goOn { frames, expected := .key }
  | _, _ => .stuck

def beginMember (frames : List Frame) (lexeme : Lexeme) : Step :=
  match frames, lexeme with
  | .object members :: rest, .string key =>
      .goOn { frames := .member members key :: rest, expected := .colon }
  | _, _ => .stuck

def step (builder : Builder) (lexeme : Lexeme) : Step :=
  match builder.expected, lexeme with
  | .value, lexeme => beginValue builder.frames lexeme
  | .valueOrClose, .closeArray => continueAfterValue builder.frames .closeArray
  | .valueOrClose, lexeme => beginValue builder.frames lexeme
  | .key, lexeme => beginMember builder.frames lexeme
  | .keyOrClose, .closeObject => continueAfterValue builder.frames .closeObject
  | .keyOrClose, lexeme => beginMember builder.frames lexeme
  | .colon, .colon => .goOn { builder with expected := .value }
  | .colon, _ => .stuck
  | .commaOrClose, lexeme => continueAfterValue builder.frames lexeme

/-- Wraps a document that is not well formed in the arrays and objects around it. -/
def wrap (inner : Document) : List Frame → Document
  | [] => inner
  | .array items :: frames => wrap (array (inner :: items).reverse false) frames
  | .member members key :: frames =>
      wrap (object ((key, inner) :: members).reverse false) frames
  | .object _ :: frames => wrap inner frames

def abandon (builder : Builder) : Document :=
  match builder.frames with
  | .array items :: frames => wrap (array items.reverse false) frames
  | .object members :: frames => wrap (object members.reverse false) frames
  | frames => wrap malformed frames

def run : Builder → List Lexeme → Document × List Lexeme
  | builder, [] => (builder.abandon, [])
  | builder, lexeme :: rest =>
      match builder.step lexeme with
      | .goOn builder => run builder rest
      | .finished document => (document, rest)
      | .stuck => (builder.abandon, rest)

end Builder

def read (text : Source) : Document × Bool :=
  let (document, rest) := Builder.run Builder.start (lexemes text)
  (document, !rest.isEmpty)

end Document

end LogQuery.Json
