import AgcBlock1.Foundation.CLibrary
import AgcBlock1.Foundation.Loop
import AgcBlock1.Foundation.Stdio
import AgcBlock1.Simulator.ObjectFile
import AgcBlock1.Simulator.FrontPanel
import AgcBlock1.Simulator.SourceListing
import AgcBlock1.Simulator.PollingLoop
import AgcBlock1.Simulator.Session
import AgcBlock1.Simulator.Breakpoints
import AgcBlock1.Simulator.MainLoop
import AgcBlock1.Simulator.DisplayUpdate
