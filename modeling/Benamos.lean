import Benamos.Types
import Benamos.BuddyTree
import Benamos.Pmm.Allocator
import Benamos.Pmm.Marking
import Benamos.Pmm.Coverage
import Benamos.Pmm.MarkedBlocks
import Benamos.Pmm.Layout
import Benamos.Pmm.SizeClass
import Benamos.Pmm.Scan
import Benamos.LinkedList
import Benamos.Pmm.ListSearch
import Benamos.Pmm.Runs
import Benamos.Pmm.NullPointer
import Benamos.X86.Memory
import Benamos.X86.Stack
import Benamos.X86.Assembly
import Benamos.Copying
import Benamos.Mandatory
import Benamos.Bytes
import Benamos.Interrupts.Isr
import Benamos.Interrupts.Idt
import Benamos.Interrupts.Frame
import Benamos.Interrupts.Resume
import Benamos.Interrupts.Nesting
import Benamos.Interrupts.Transparency
import Benamos.Interrupts.Processor
import Benamos.Interrupts.Marker
import Benamos.Boot.Kernel
import Benamos.Interrupts.InterruptTable
import Benamos.Boot.Gdt
import Benamos.Boot.Segment
import Benamos.X86.Compare
import Benamos.Boot.PhysAddrBits
import Benamos.Boot.Init
import Benamos.Boot.Moments
import Benamos.Boot.Tables
import Benamos.X86.Ports
import Benamos.Console.Serial
import Benamos.Checked
import Benamos.Numeral
import Benamos.Console.Printf
import Benamos.Console.Integers
import Benamos.Console.Output
import Benamos.Console.Formatter
import Benamos.Console.Grammar
import Benamos.Console.Composition
import Benamos.Console.Standard
import Benamos.Console.Marks
import Benamos.Console.Conformance
import Benamos.Console.EntryPoints
import Benamos.Turns
import Benamos.Handover
import Benamos.X86.Transmitter
import Benamos.Console.Polling
import Benamos.Interruption
import Benamos.Console.Interrupted
import Benamos.Console.MemoryMap
import Benamos.Interrupts.Handler
import Benamos.Reading
import Benamos.Interrupts.Report
import Benamos.Interrupts.Depth
import Benamos.Boot.Outcome
import Benamos.Boot.Running
import Benamos.Sampling
import Benamos.Interrupts.Clock
import Benamos.Interrupts.Sse
import Benamos.Grid
import Benamos.Draw.Raster
import Benamos.Draw.Walk
import Benamos.Draw.Bounds
import Benamos.Draw.Accuracy
import Benamos.Draw.Distance
import Benamos.Draw.Cap
import Benamos.Draw.Cylinder
import Benamos.Draw.Gaps
import Benamos.Draw.Screen
import Benamos.Main
