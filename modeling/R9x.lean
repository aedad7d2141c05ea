import R9x.Verif.Separation
import R9x.Verif.SendOnce
import R9x.Verif.DeviceMaps
import R9x.Verif.EarlyTables
import R9x.Verif.IrqRuns
import R9x.Verif.SwitchRuns
import R9x.Verif.FdtTotal
import R9x.Verif.Turns
import R9x.Verif.Reaping
import R9x.Verif.UserHeap
import R9x.Verif.NameMap
import R9x.Verif.Servers
import R9x.Verif.Timers
import R9x.Verif.BoundedReceive
import R9x.Verif.Closing
import R9x.Verif.Messages
import R9x.Verif.DepthRuns
import R9x.Verif.MapSteps
import R9x.Verif.MapRange
import R9x.Verif.PageBitmap.Deallocate
import R9x.Verif.HeapGrants
import R9x.Verif.FdtTranslation
import R9x.Verif.BumpRuns
import R9x.Verif.McsUnlock
import R9x.Verif.Printing
import R9x.Verif.TimerClaims
import R9x.Verif.Unlinking
import R9x.Verif.Prefixes
import R9x.Verif.ChannelSlots
import R9x.Verif.BumpCores
import R9x.Verif.FrontMatter
import R9x.Verif.ElfReader
import R9x.Verif.Memmove
