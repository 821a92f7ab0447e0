/-
Paths of local sockets as the system follows them: from the root or from where the program stands, step by step. Slashes
in a row count once and a step that stays in place counts for nothing, so one socket has many written paths.

A path that ends in a slash, or in a step that stays in place, asks for a directory and never leads to a socket.
-/
import RespClient.Bytes

namespace RespClient

/-- The way to a socket. -/
structure SocketPath where
  absolute : Bool
  /-- names, and `..` for a step up -/
  steps : List String
  /-- the path asks for a directory -/
  directory : Bool
  deriving DecidableEq

namespace SocketPath

/-- A piece between slashes that leads nowhere else. -/
def staysInPlace (piece : List Char) : Bool := piece.isEmpty || piece == ['.']

/-- The path that a text writes. -/
def ofText (text : String) : SocketPath :=
  let pieces := fields '/' text.toList
  { absolute := text.toList.head? == some '/'
    steps := (pieces.filter (!staysInPlace ·)).map String.ofList
    directory := pieces.getLast?.any staysInPlace }

/-- The path leads to the place it starts from, or straight up from there. -/
def isUpward (p : SocketPath) : Bool := p.steps.all (· == "..")

/-- The path leads to a place and on from there, or asks for a directory there. -/
def leadsThrough (p place : SocketPath) : Bool :=
  p.absolute == place.absolute && place.steps.isPrefixOf p.steps

end SocketPath

end RespClient
