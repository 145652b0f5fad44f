import WebFort.Capture
import WebFort.Server.Tock
import WebFort.Library.Percent
import Mathlib.Logic.Function.Basic

namespace WebFort

open Library

-- A tile as the update packet carries it: character, background and flags,
-- foreground 0-15, texpos and texpos_lower.
structure WireCell where
  ch : UInt8
  bgFlags : UInt8
  fg : UInt8
  texpos : Nat
  texposLower : Nat
  deriving DecidableEq

-- One round of the first loop of renderUpdate.
structure TileRec where
  x : Nat
  y : Nat
  cell : WireCell
  deriving DecidableEq

-- lo | (hi << 8)
def word (lo hi : UInt8) : Nat := lo.toNat ||| hi.toNat <<< 8

-- Reads past the end of the array are undefined.
def renderUpdate : Bytes → List (Option TileRec)
  | [] => []
  | x :: y :: s :: bg :: fg :: tpLo :: tpHi :: tplLo :: tplHi :: rest =>
      some ⟨x.toNat, y.toNat, ⟨s, bg, fg, word tpLo tpHi, word tplLo tplHi⟩⟩ :: renderUpdate rest
  | _ => [none]

-- Tile data starts at 17+nickSize.
def tileRecords (data : Bytes) : List (Option TileRec) :=
  renderUpdate (data.drop (17 + (data.getD 16 0).toNat))

-- What the last record for each tile told the page.
abbrev Page := Nat × Nat → Option WireCell

def Page.blank : Page := fun _ => none

def Page.put (page : Page) (r : Option TileRec) : Page :=
  match r with
  | none => page
  | some r => Function.update page (r.x, r.y) (some r.cell)

-- The tile part of onMessage: a page is what the last record delivered for
-- each tile says, also where a nick that cannot be decoded makes onMessage
-- leave before it draws. The other packets draw no tile.
def Page.receive (page : Page) (data : Bytes) : Page :=
  if data.head? = some 110 then (tileRecords data).foldl Page.put page else page

-- The bytes of [17..16+nickSize] up to a NUL as code units; one past the end
-- of the array is a NUL character.
def activeNick (data : Bytes) : List Nat :=
  (((List.range (data.getD 16 0).toNat).map fun i => data[17 + i]?).takeWhile
    (· ≠ some 0)).map fun b => (b.getD 0).toNat

-- What onMessage does about the next update request. An exception leaves it
-- before it gets there.
inductive NextRequest
  | sent
  | scheduled
  | nothing
  | aborted
  deriving DecidableEq

-- The rest of onMessage; nextFrame is the time left to the next frame.
def pageOnMessage (nextFrame : Int) (data : Bytes) : NextRequest :=
  if data.head? = some 110 then
    match Percent.decode (activeNick data) with
    | none => .aborted
    | some _ => if nextFrame < 4 then .sent else .scheduled
  else .nothing

-- What a record says of a cell of own_sc.
def Cell.wire (s : Cell) : WireCell :=
  { ch := s.ch
    bgFlags := s.bg
    fg := fgByte s
    texpos := word s.tpLo s.tpHi
    texposLower := word s.tplLo s.tplHi }

end WebFort
