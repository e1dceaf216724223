import VoiceButton.Library.Transition
import VoiceButton.Library.Table
import VoiceButton.Library.Supervision
import VoiceButton.Library.Census
import VoiceButton.Library.LinkedList
import VoiceButton.Library.SharedFile
import VoiceButton.Library.Deadlines
import VoiceButton.Library.MachineInt
import VoiceButton.Button.State
import VoiceButton.Button.Step
import VoiceButton.Button.Moves
import VoiceButton.Button.Handshake
import VoiceButton.Button.Census
import VoiceButton.Button.HandOver
import VoiceButton.Button.Join
import VoiceButton.Button.Failure
import VoiceButton.Button.Recorder
import VoiceButton.Button.Audio
import VoiceButton.Button.Conversation
import VoiceButton.Button.Progress
import VoiceButton.Lg.Hdl
import VoiceButton.Lg.HdlMoves
import VoiceButton.Lg.Registry
import VoiceButton.Lg.Objects
import VoiceButton.Lg.Scan
import VoiceButton.Lg.Cmd
import VoiceButton.Library.Labels
import VoiceButton.Lg.CmdScript
import VoiceButton.Lg.Parsing
import VoiceButton.Lg.Accepted
import VoiceButton.Lg.Operands
import VoiceButton.Lg.Script
import VoiceButton.Lg.ScriptMeaning
import VoiceButton.Lg.ScriptSafety
import VoiceButton.Lg.ScriptThread
import VoiceButton.Lg.ScriptRuns
import VoiceButton.Lg.Tx
import VoiceButton.Lg.TxRuns
import VoiceButton.Lg.TxWaves
import VoiceButton.Lg.TxFree
import VoiceButton.Lg.AlertMoves
