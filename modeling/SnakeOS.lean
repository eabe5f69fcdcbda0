import SnakeOS.Lib.Loop
import SnakeOS.Lib.Run
import SnakeOS.Lib.C
import SnakeOS.Lib.LineEdit
import SnakeOS.Lib.Paper
import SnakeOS.Lib.Shift
import SnakeOS.Term.Vga
import SnakeOS.Term.Console
import SnakeOS.Term.Window
import SnakeOS.Term.Tty
import SnakeOS.Term.Editor
import SnakeOS.Term.Position
import SnakeOS.Term.Align
import SnakeOS.Term.Clock
import SnakeOS.Term.Seconds
import SnakeOS.Kernel.Spinlock
import SnakeOS.Term.Keyboard
import SnakeOS.Lib.Byte
import SnakeOS.Term.Modifiers
import SnakeOS.Term.Translate
import SnakeOS.Lib.Digits
import SnakeOS.Lib.Reverse
import SnakeOS.Lib.Hex
import SnakeOS.Kernel.Kprint
import SnakeOS.Arch.I8259
import SnakeOS.Arch.Deliver
import SnakeOS.Boot.E820
import SnakeOS.Arch.Stub
import SnakeOS.Lib.Fat12
import SnakeOS.Boot.Disk
import SnakeOS.Boot.LoadFile
import SnakeOS.Kernel.Itoa
import SnakeOS.Kernel.Format
import SnakeOS.Arch.History
import SnakeOS.Kernel.Util
import SnakeOS.Lib.Field
import SnakeOS.Lib.OrderedMap
import SnakeOS.Kernel.Cdev
import SnakeOS.Arch.Gdt
import SnakeOS.Arch.Descriptor
import SnakeOS.Arch.Idt
import SnakeOS.Term.Committed
import SnakeOS.Term.Rows
import SnakeOS.Kernel.Sections
import SnakeOS.Lib.Paging
import SnakeOS.Boot.Paging
import SnakeOS.Boot.Protected
import SnakeOS.Boot.Long
import SnakeOS.Boot.Path
import SnakeOS.Boot.Bss
import SnakeOS.Boot.Retry
import SnakeOS.Boot.RootDir
import SnakeOS.Boot.SearchFile
import SnakeOS.Boot.Chain
import SnakeOS.Kernel.Refused
import SnakeOS.Kernel.Exception
import SnakeOS.Arch.Exception
import SnakeOS.Term.Backspace
import SnakeOS.Term.Bounds
import SnakeOS.Term.Silent
import SnakeOS.Kernel.Panic
import SnakeOS.Kernel.ItoaHex
import SnakeOS.Boot.Overwrite
import SnakeOS.Kernel.Memcopy
import SnakeOS.Kernel.Strcmp
import SnakeOS.Arch.Service
import SnakeOS.Drivers.I8253
import SnakeOS.Drivers.InitRam
import SnakeOS.Init.Handlers
import SnakeOS.Init.Kmain
import SnakeOS.Init.Runs
import SnakeOS.Init.Screen
import SnakeOS.Init.Ticks
import SnakeOS.Arch.Segments
import SnakeOS.Arch.Tables
import SnakeOS.Boot.Main
import SnakeOS.Init.BootMap
