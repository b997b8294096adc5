import MmtkArt.GcTrigger.Decision
import MmtkArt.GcTrigger.HeapRange
import MmtkArt.GcTrigger.Threads
import MmtkArt.GcTrigger.PendingPages
import MmtkArt.GcTrigger.ForegroundSwitch
import MmtkArt.GcTrigger.Contention
import MmtkArt.GcTrigger.Growth
import MmtkArt.Scanning.WeakRefs
import MmtkArt.Util.Asserting
import MmtkArt.Util.Bitmap
import MmtkArt.Util.Chain
import MmtkArt.Util.Memory
import MmtkArt.Util.Placement
import MmtkArt.Util.Refines
import MmtkArt.Abi
import MmtkArt.ObjectScanning
import MmtkArt.Layout
import MmtkArt.StringSize
import MmtkArt.ObjectScanning.Exact
import MmtkArt.ObjectScanning.Slots
import MmtkArt.ObjectScanning.Bitmaps
import MmtkArt.ObjectScanning.Assertions
import MmtkArt.ClassLayout
import MmtkArt.ObjectModel
import MmtkArt.ObjectModel.Copy
import MmtkArt.ObjectModel.Relocation
import MmtkArt.ObjectModel.Evacuation
import MmtkArt.Slot
import MmtkArt.MemorySlice
import MmtkArt.ArrayCopy
import MmtkArt.Initialization
import MmtkArt.ObjectScanning.Scannable
import MmtkArt.ObjectModel.Assertions
import MmtkArt.ObjectModel.Mutation
import MmtkArt.Program
import MmtkArt.GcTrigger.Accesses
import MmtkArt.Util.Locks
import MmtkArt.Setup.Accesses
import MmtkArt.Setup.Progress
import MmtkArt.Setup.Lifetime
