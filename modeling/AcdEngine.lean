import AcdEngine.Types
import AcdEngine.Context
import AcdEngine.Stack
import AcdEngine.Registry
import AcdEngine.Classify
import AcdEngine.Transitions
import AcdEngine.Callbacks
import AcdEngine.Defend
import AcdEngine.Periodic
import AcdEngine.ConflictCounter
import AcdEngine.Schedule
import AcdEngine.Phases
import AcdEngine.AddressClaim
import AcdEngine.ChainEngine
import AcdEngine.Frames
