import MiniArena.AttackRange
import MiniArena.BattleBooks
import MiniArena.BattleHistory
import MiniArena.BufferGrowth
import MiniArena.Clients
import MiniArena.ConnectionPool
import MiniArena.DeadConnection
import MiniArena.DisconnectedState
import MiniArena.EdgeTrigger
import MiniArena.FailedLogin
import MiniArena.FinitePositions
import MiniArena.Fleet
import MiniArena.FullRooms
import MiniArena.HeartbeatTimeout
import MiniArena.HostilePayload
import MiniArena.IllegalCount
import MiniArena.LoginCache
import MiniArena.MatchCancel
import MiniArena.MatchFifo
import MiniArena.OverrideQueue
import MiniArena.RedisMirror
import MiniArena.RedisReply
import MiniArena.RoomLifecycle
import MiniArena.RoomOperations
import MiniArena.SendTargets
import MiniArena.SkillClock
import MiniArena.SpeedLimit
import MiniArena.UnboundConnection
import MiniArena.WheelInvariant
