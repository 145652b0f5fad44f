import WebFort.Library.Machine
import WebFort.Library.OrdMap
import WebFort.Library.Mirror
import WebFort.Library.Grid
import WebFort.Library.Words
import WebFort.Game
import WebFort.Capture
import WebFort.Capture.Lemmas
import WebFort.Library.Outcome
import WebFort.Network
import WebFort.Input
import WebFort.Server.State
import WebFort.Server.Turn
import WebFort.Server.Tock
import WebFort.Server.Handlers
import WebFort.Update
import WebFort.Update.Lemmas
import WebFort.Update.Frames
import WebFort.Browser
import WebFort.Server.Frame
import WebFort.Server.Lemmas
import WebFort.Server.Packet
import WebFort.System
import WebFort.Sample
import WebFort.System.Lemmas
import WebFort.Framing
import WebFort.Coherence
import WebFort.Turns
import WebFort.Loop
import WebFort.Spectators
import WebFort.Escape
import WebFort.Pause
import WebFort.Restore
import WebFort.Token
import WebFort.FirstFrame
import WebFort.Library.Relay
import WebFort.Race
import WebFort.Keys
import WebFort.Library.Drain
import WebFort.InputOrder
import WebFort.Library.Argmin
import WebFort.Tiles
import WebFort.Header
import WebFort.Library.Path
import WebFort.Http
import WebFort.Library.Percent.Encode
import WebFort.Credentials
import WebFort.Config
import WebFort.Split
import WebFort.ConfigLines
import WebFort.Update.Steps
import WebFort.Viewport
import WebFort.Bounds
import WebFort.Library.Clock
import WebFort.TurnClock
import WebFort.Library.History
import WebFort.Idle
import WebFort.Update.Clients
import WebFort.Server.Look
import WebFort.Cursors
import WebFort.CursorPacket
import WebFort.OwnCamera
import WebFort.Resize
import WebFort.Library.Decimal
import WebFort.Library.Fields
import WebFort.Library.Buffer
import WebFort.Library.Json
import WebFort.Library.Balance
import WebFort.Deltas
import WebFort.Expiry
import WebFort.Background
import WebFort.Library.Fit
import WebFort.Cameras
import WebFort.MapBounds
import WebFort.Followers
import WebFort.Mouse
import WebFort.Library.Markup
import WebFort.Status
import WebFort.Library.JsonText
import WebFort.StatusJson
import WebFort.Lifecycle
import WebFort.Malformed
import WebFort.Library.Clamp
import WebFort.CameraPaths
import WebFort.Admission
import WebFort.Atlas
import WebFort.Atlas.Build
import WebFort.Atlas.Fallback
import WebFort.Atlas.Layout
import WebFort.Atlas.Served
import WebFort.AtlasPage
import WebFort.AtlasPage.Pairs
import WebFort.AtlasPage.Announced
import WebFort.Library.Raster
import WebFort.Tileset
import WebFort.Draw
import WebFort.Display
import WebFort.Pixels
import WebFort.Sprites
import WebFort.Library.Progress
import WebFort.Delay
import WebFort.Settle
import WebFort.Controls
import WebFort.Library.Flow
import WebFort.Playing
import WebFort.Pointer
import WebFort.Views
import WebFort.Library.Percent.Units
import WebFort.Library.JsonPrint
import WebFort.Library.Record
import WebFort.Params
import WebFort.Links
import WebFort.Sessions
import WebFort.Panning
import WebFort.Objects
import WebFort.Hovering
