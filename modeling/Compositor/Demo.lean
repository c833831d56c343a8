import Compositor.DebugRect
import Compositor.Host.Running
import Compositor.Surface.Memory
import Compositor.Tile

/-!
# A demonstration

A small client for the memory manager: two tabs, one in front and one behind, and a
canvas that lives on the memory of the first. A tab holds the frame it committed – a
page, scrolled a little, and on it a panel that blurs what is behind it and has a
reflection – and the tiles of its viewport, and would like to keep the textures of both.

The demonstration opens a tracking group for each tab, reports what the tab holds, asks
for a pass and shows what came of it.
-/

namespace Compositor

/-- A tab of the demonstration. -/
structure DemoTab where
  name : String
  surface : SurfaceState
  frame : List RenderSurface
  tiles : List TileQuad

namespace DemoTab

/-- The width of a tab's viewport. -/
def width : Int32 := 1280

/-- The height of a tab's viewport. -/
def height : Int32 := 800

/-- The side of a tile. -/
def tileSide : Nat := 256

/-- The frame of a tab. The numbers of its surfaces and layers follow from the tab's
own, and have to fit their word. -/
def frameOf (seed : Nat) : Except Fault (List RenderSurface) := do
  let number ← Word32.mul seed 10
  let panelNumber ← Word32.add number 1
  let page : LayerSnapshot :=
    { id := number
      bounds := .ofSize width (4 * height)
      screen := .shift (Grid.ofCoord 0) (Grid.ofCoord (-120)) (Grid.ofCoord 0)
      updated := ⟨0, 120, width, 200⟩ }
  let root : RenderSurface :=
    { id := number
      content := .ofSize width height
      layers := [page]
      damage := ⟨0, 0, width, 200⟩ }
  let offset := Transform.shift (Grid.ofCoord 40) (Grid.ofCoord 300) (Grid.ofCoord 0)
  let reflection :=
    (Transform.shift (Grid.ofCoord 40) (Grid.ofCoord 900) (Grid.ofCoord 0)).after
      (.scaling (Grid.ofCoord 1) (Grid.ofCoord (-1)) (Grid.ofCoord 1))
  let panel : RenderSurface :=
    { id := panelNumber
      content := .ofSize 600 300
      draw := offset
      screen := offset
      replica := some ⟨some reflection, some reflection⟩
      hasBackgroundFilters := true }
  return [root, panel]

/-- The corners of the tiles along a side of the viewport. -/
def corners (side : Int32) : List Int32 :=
  (List.range ((side.toInt.toNat + tileSide - 1) / tileSide)).map fun i =>
    Int32.ofNat (i * tileSide)

/-- The tiles that cover the viewport, row by row. -/
def tilesOf : List TileQuad :=
  let side := Int32.ofNat tileSide
  let shared := SharedQuadState.ofVisible (.ofSize width height) Transform.one true
  let places := (corners height).flatMap fun y => (corners width).map fun x => (x, y)
  places.zipIdx.map fun ((x, y), index) =>
    { shared
      rect := ⟨x, y, side, side⟩
      opaqueRect := ⟨x, y, side, side⟩
      resource := index + 1
      offset := (0, 0)
      size := (side, side) }

/-- A tab. -/
def new (name : String) (surface : SurfaceState) : Except Fault DemoTab := do
  return { name, surface, frame := ← frameOf surface.surfaceId.toUInt32.toNat, tiles := tilesOf }

/-- What the tab would like to keep. -/
def requested (t : DemoTab) : Except Fault Nat := do
  Word.add (← surfaceMemory t.frame width height) (← tileMemory t.tiles)

/-- What a pass sees of the tab, as the stub of the given number. A tab draws with nobody
else's memory, so it shares a group with none. -/
def view (t : DemoTab) (id : StubId) : Except Fault StubView := do
  return { id, surface := some t.surface, requested := ← t.requested }

/-- The rectangles that the overlay shows of the tab's frame. -/
def debugRects (t : DemoTab) : DebugRectHistory :=
  (DebugRectHistory.save {} { surfaces := t.frame } .all).2

end DemoTab

namespace Demo

/-- The name of the tab in front. -/
def foreground : String := "foreground"

/-- The name of the tab behind. -/
def background : String := "background"

/-- The name of the canvas. -/
def canvas : String := "canvas"

/-- The tabs. -/
def tabs : Except Fault (List DemoTab) := do
  return [← DemoTab.new foreground ⟨1, true, .ofSeconds 20⟩,
    ← DemoTab.new background ⟨2, false, .ofSeconds 10⟩]

/-- A tracking group, the process on whose behalf it is, and its size. -/
structure GroupReport where
  id : GroupId
  pid : Nat
  size : Nat

/-- A stub, what it would like, and what it got. -/
structure StubReport where
  name : String
  requested : Nat
  allocation : Allocation

/-- What came of the demonstration. -/
structure Report where
  groups : List GroupReport
  /-- Whether a pass waited before one was asked for. -/
  scheduled : Bool
  /-- How many tasks ran. -/
  ran : Nat
  tabs : List StubReport
  canvas : StubReport
  usage : Usage
  overBudget : Nat

/-- Nobody in the demonstration has more to do when called back. -/
abbrev Act (α : Type) : Type := Host.Act Unit α

/-- What happens in a call back: nothing. -/
def quiet (_ : Unit) : Act Unit := pure ()

/-- Adds a stub to the host. -/
def addStub (name : String) (surface : Option SurfaceState) (requested : Nat)
    (shares : List String) : Act StubId := do
  let stub : StubRecord Unit :=
    { name, surface, requested, shares, sizeFrom := none, onRequest := (), onGrant := () }
  let (id, stubs) := (← Host.residents).stubs.enroll name stub
  Host.change fun r => { r with stubs }
  return id

/-- What a stub got. -/
def reportStub (id : StubId) : Act StubReport := do
  match (← Host.residents).stubs.get? id with
  | none => return ⟨"", 0, .empty⟩
  | some s => return ⟨s.name, s.requested, s.allocation⟩

/-- Adds the manager to the host, and answers its number. -/
def addManager (config : Config) : Act Nat := do
  let r ← Host.residents
  let (proxy, proxies) := r.proxies.add {}
  let owner : StubOwner Unit :=
    { name := "demo", stubs := [foreground, background, canvas], driverTotal := none
      onEnumerate := () }
  let manager := Manager.ofConfig r.platform config
  let (number, managers) := r.managers.enroll owner.name { manager, owner, proxy }
  Host.change fun r => { r with proxies, managers }
  return number

/-- Opens a tracking group for a process, and reports what it holds. -/
def openGroup (manager : Nat) (pid size : Nat) : Act GroupId := do
  match ← Host.addGroup manager pid with
  | none => return 0
  | some id =>
    Host.reportGroup manager id 0 size
    return id

/-- Gives the demonstration on a host, letting some time pass after a pass was asked for. -/
def perform (config : Config) (fuel : Nat) (span : Nanos) : Act Report := do
  let stubs ← (← Action.ofExcept tabs).mapM fun tab => do
    addStub tab.name (some tab.surface) (← Action.ofExcept tab.requested) []
  let canvasId ← addStub canvas none 0 [foreground]
  let number ← addManager config
  let groups ← stubs.zipIdx.mapM fun (stub, index) => do
    openGroup number (index + 1) (← reportStub stub).requested
  let r ← Host.residents
  let scheduled := ((r.managers.get? number).map fun s => s.manager.isScheduled r.handles).getD false
  Host.schedule number true
  let ran ← EventLoop.advance (Host.runTask quiet) fuel span
  let manager := ((← Host.seat? number).map ManagerSeat.manager).getD (.ofConfig .desktop config)
  return {
    groups := groups.zipIdx.map fun (id, index) =>
      { id, pid := index + 1, size := (manager.ledger.size? id).getD 0 }
    scheduled
    ran
    tabs := ← stubs.mapM reportStub
    canvas := ← reportStub canvasId
    usage := ← Action.ofExcept manager.usage
    overBudget := manager.overBudget }

/-- More than the demonstration needs: it posts two passes at most. -/
def fuel : Nat := 16

/-- **The demonstration**, on a device of some platform family. It needs a valid
configuration. -/
def report (platform : Platform) (config : Config) (span : Nanos) :
    Except ConfigError (Except Halt Report) := do
  config.validate
  return ((perform config fuel span).on (Host.new "demo" platform)).1

end Demo

end Compositor
