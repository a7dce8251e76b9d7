import ChewingTsf.Core.Config
import ChewingTsf.Core.Registry
import ChewingTsf.Host.EventLoop
import ChewingTsf.Host.Replies
import ChewingTsf.Host.CandidateWindow
import ChewingTsf.Tip.SessionGuards
import ChewingTsf.Tip.Delivery
import ChewingTsf.Tip.Mirror
import ChewingTsf.Tip.Focus
import ChewingTsf.Tip.Termination
import ChewingTsf.Tip.KeyProtocol
import ChewingTsf.Tip.KeyFilter
import ChewingTsf.Tip.Reload
import ChewingTsf.Tip.InForce
import ChewingTsf.Tip.KeyMessage
import ChewingTsf.Tip.Ownership
import ChewingTsf.Tip.OpenClose
import ChewingTsf.Tip.Toggling
import ChewingTsf.Tip.ClosedKeyboard
import ChewingTsf.Tip.CandidateSync
import ChewingTsf.Tip.Preedit
import ChewingTsf.Tip.CompositionText
import ChewingTsf.Tip.StartUp
import ChewingTsf.Tip.KeyTest
import ChewingTsf.Tip.ShiftTap
import ChewingTsf.Tip.KeyCalls
import ChewingTsf.Tip.Conversion
import ChewingTsf.Tip.ReadOnly
import ChewingTsf.Tip.TextBinding
import ChewingTsf.Tip.CandidateCursor
import ChewingTsf.Tip.CandidatePage
import ChewingTsf.Tip.StoredPreferences
import ChewingTsf.Tip.LangToggle
import ChewingTsf.Tip.EventSinks
import ChewingTsf.Host.Version
import ChewingTsf.Host.Update
import ChewingTsf.Tip.DisplayAttribute
import ChewingTsf.Tip.KeyCombination
import ChewingTsf.Host.ConnectionEnd
import ChewingTsf.Host.WindowPosition
import ChewingTsf.Tip.ScanCode
import ChewingTsf.Tip.UiElements
import ChewingTsf.Tip.Screen
import ChewingTsf.Tip.Writing
import ChewingTsf.Tip.HostedScreen
import ChewingTsf.Tip.ServedScreen
import ChewingTsf.Tip.Notices
import ChewingTsf.Tip.ShownMode
import ChewingTsf.Host.Handover
import ChewingTsf.Host.FullChannel
import ChewingTsf.Host.SharedRegistry
