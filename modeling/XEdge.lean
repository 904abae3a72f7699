import XEdge.Northbound.NoLoss
import XEdge.Modbus.BusOwnership
import XEdge.Config.History
import XEdge.Config.Layering
import XEdge.Config.WatchLoop
import XEdge.Core.Convergence
import XEdge.Core.SlaveIds
import XEdge.Modbus.Scheduler
import XEdge.Northbound.Uplink
import XEdge.Northbound.Sparkplug.Fields
import XEdge.Store.Streams
import XEdge.Northbound.Retention
import XEdge.Northbound.TagIdentity
import XEdge.Observability.AuditTrail
import XEdge.Fleet.Enrollment
import XEdge.MqttSubscriber.FanOut
import XEdge.Fleet.Users
import XEdge.Api.RateLimit
import XEdge.Api.Lockout
import XEdge.Api.Sessions
import XEdge.Core.AlarmNotifications
import XEdge.Fleet.Registration
import XEdge.Fleet.ApplyReports
import XEdge.Fleet.TenantIsolation
import XEdge.Modbus.Availability
import XEdge.Modbus.Attempts
import XEdge.Core.ConnectivityHistory
import XEdge.Core.Deadband
import XEdge.Core.AlarmEpisodes
import XEdge.Core.Eviction
import XEdge.Northbound.Replay
import XEdge.Northbound.Sparkplug.Ranges
import XEdge.Northbound.LazyNodes
import XEdge.Modbus.ScanSchedule
import XEdge.Modbus.OnDemand
import XEdge.Core.ReconcileCalls
import XEdge.Core.Backoff
import XEdge.Northbound.SnmpAgent
import XEdge.Snmp.TrapReceiver
import XEdge.MqttSubscriber.Decoding
import XEdge.Bacnet.MstpStall
import XEdge.Core.Sntp
import XEdge.Core.ReadRates
import XEdge.Fleet.AgentIdentity
