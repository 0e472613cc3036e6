import ReZygisk.Foundation.Loop
import ReZygisk.Foundation.Bytes
import ReZygisk.Foundation.System
import ReZygisk.Foundation.Memory
import ReZygisk.Foundation.Prog
import ReZygisk.Foundation.Text
import ReZygisk.Foundation.Utf8
import ReZygisk.Foundation.Interleaving
import ReZygisk.Foundation.Forest
import ReZygisk.Foundation.Search
import ReZygisk.Foundation.Lines
import ReZygisk.Foundation.Chains
import ReZygisk.Foundation.Codes
import ReZygisk.Foundation.Records
import ReZygisk.Kernel.Abi
import ReZygisk.Kernel.Wait
import ReZygisk.Kernel.Mounts
import ReZygisk.Kernel.AddressSpace
import ReZygisk.Kernel.Memfd
import ReZygisk.Monitor.State
import ReZygisk.Monitor.Socket
import ReZygisk.Monitor.SigChld
import ReZygisk.Monitor.System
import ReZygisk.Monitor.Resume
import ReZygisk.Monitor.Daemons
import ReZygisk.Monitor.Transitions
import ReZygisk.Monitor.StopCause
import ReZygisk.Monitor.EventLoop
import ReZygisk.Monitor.Lifecycle
import ReZygisk.Monitor.Launches
import ReZygisk.Monitor.StatusFile
import ReZygisk.Monitor.InjectedReport
import ReZygisk.Monitor.ForkDontCare
import ReZygisk.Tracer.Maps
import ReZygisk.Tracer.MapsFile
import ReZygisk.Tracer.Remote
import ReZygisk.Tracer.StackFrame
import ReZygisk.Tracer.Inject
import ReZygisk.Tracer.Restore
import ReZygisk.Tracer.EntryWalk
import ReZygisk.Tracer.TraceZygote
import ReZygisk.Tracer.Resumptions
import ReZygisk.Zygiskd.Wire
import ReZygisk.Zygiskd.RootImpl
import ReZygisk.Zygiskd.HandleAction
import ReZygisk.Zygiskd.LoadModules
import ReZygisk.Zygiskd.SharedUids
import ReZygisk.Zygiskd.RootDetection
import ReZygisk.Zygiskd.Frame
import ReZygisk.Zygiskd.Logcat
import ReZygisk.Zygiskd.Panics
import ReZygisk.Zygiskd.AcceptLoop
import ReZygisk.Zygiskd.Announce
import ReZygisk.Monitor.Messages
import ReZygisk.Monitor.FailedWait
import ReZygisk.Monitor.Tracees
import ReZygisk.Monitor.StatusText
import ReZygisk.Monitor.ZygoteStarts
import ReZygisk.Monitor.PropMounts
import ReZygisk.Monitor.ModuleProp
import ReZygisk.Monitor.Reports
import ReZygisk.Zygiskd.SpawnCompanion
import ReZygisk.Zygiskd.CompanionEntry
import ReZygisk.Zygiskd.CompanionNet
import ReZygisk.Zygiskd.CompanionSafety
import ReZygisk.Zygiskd.CompanionRoutes
import ReZygisk.Injector.Fork
import ReZygisk.Injector.ForkReplay
import ReZygisk.Injector.JniHooks
import ReZygisk.Injector.HookNatives
import ReZygisk.Injector.Modules
import ReZygisk.Injector.PltHooks
import ReZygisk.Injector.Logging
import ReZygisk.Injector.LogRelay
import ReZygisk.Injector.SanitizeFds
import ReZygisk.Injector.ExemptFd
import ReZygisk.Injector.DaemonClient
import ReZygisk.Injector.WireFields
import ReZygisk.Injector.ModuleIdentity
import ReZygisk.Injector.ModuleLibraries
import ReZygisk.Injector.GetInfo
import ReZygisk.Injector.MountInfo
import ReZygisk.Injector.MountFields
import ReZygisk.Injector.Unmount
import ReZygisk.Injector.MountTargets
import ReZygisk.Injector.ElfImg
import ReZygisk.Injector.SymbolLookup
import ReZygisk.Injector.ElfSections
import ReZygisk.Injector.SoList
import ReZygisk.Injector.Unload
import ReZygisk.Injector.PltCommits
import ReZygisk.Injector.UnloadSafety
import ReZygisk.Injector.Specialize
import ReZygisk.Injector.Remap
import ReZygisk.Injector.JniGenerator
import ReZygisk.Injector.JniCalls
import ReZygisk.Injector.LogDescriptor
import ReZygisk.Injector.DetectedRoot
