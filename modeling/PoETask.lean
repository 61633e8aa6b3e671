import PoETask.Library.Bytes
import PoETask.Library.StepSystem
import PoETask.Library.ListSearch
import PoETask.Library.Spacing
import PoETask.Library.Erasing
import PoETask.Library.Swapping
import PoETask.Library.ShortestPath
import PoETask.Library.GraphSearch
import PoETask.Library.SummedArea
import PoETask.Library.SqlTokens
import PoETask.Library.SearchTree
import PoETask.Library.SortedSearch
import PoETask.Library.LocalLoops
import PoETask.Library.WordMixing
import PoETask.Library.PointerChain
import PoETask.Library.BareFormat
import PoETask.Wire.Buffer
import PoETask.Wire.Packet
import PoETask.Wire.Framing
import PoETask.Wire.Codec
import PoETask.Wire.Readers
import PoETask.Wire.FieldCodec
import PoETask.Wire.ReaderBounds
import PoETask.Wire.Protocol
import PoETask.AuthServer.Login
import PoETask.AuthServer.Consistency
import PoETask.AuthServer.LoginRace
import PoETask.AuthServer.Incarnation
import PoETask.AuthServer.WriteSide
import PoETask.AuthServer.PacketLeak
import PoETask.AuthServer.ObjectPool
import PoETask.AuthServer.LoginQueries
import PoETask.AuthServer.LoginBounds
import PoETask.AuthServer.LoginLog
import PoETask.AuthServer.UsersTable
import PoETask.AuthServer.TableSteps
import PoETask.AuthServer.AccountTerms
import PoETask.AuthServer.Presence
import PoETask.AuthServer.Encrypt
import PoETask.AuthServer.CipherInversion
import PoETask.Launcher.Client
import PoETask.Launcher.LoginAgreement
import PoETask.Launcher.LoginRequest
import PoETask.Launcher.Revocation
import PoETask.Launcher.Receive
import PoETask.Launcher.AccountEditing
import PoETask.Launcher.AccountList
import PoETask.Launcher.AccountFile
import PoETask.Launcher.EncryptedResource
import PoETask.Launcher.LogMailbox
import PoETask.Attach.Geometry
import PoETask.Attach.Dijkstra
import PoETask.Attach.ShortestRoute
import PoETask.Attach.QuestPath
import PoETask.Attach.MainLoop
import PoETask.Attach.AreaPath
import PoETask.Attach.GlobalMove
import PoETask.Attach.AreaParts
import PoETask.Attach.QuestLogic
import PoETask.Attach.BlockMap
import PoETask.Attach.RawPath
import PoETask.Attach.RefinePath
import PoETask.Attach.StepBound
import PoETask.Attach.LineOfSight
import PoETask.Attach.ConnectedArea
import PoETask.Attach.RawSearch
import PoETask.Attach.GridAccess
import PoETask.Attach.ScanPath
import PoETask.Attach.ScanTour
import PoETask.Attach.TargetPath
import PoETask.Attach.FullPath
import PoETask.Attach.FailedLoad
import PoETask.Attach.ObjectCache
import PoETask.Attach.EquipItem
import PoETask.Attach.CompareItem
import PoETask.Attach.CursorItem
import PoETask.Attach.Inventory
import PoETask.Attach.EmptyCell
import PoETask.Attach.PurchaseItem
import PoETask.Attach.SellItem
import PoETask.Attach.RemoteMemory
import PoETask.Attach.SlotHashMap
import PoETask.Attach.LinkedLists
import PoETask.Attach.EntityList
import PoETask.Attach.Surroundings
import PoETask.Attach.Battle
import PoETask.Attach.Hunting
import PoETask.Attach.ObjectResource
import PoETask.Attach.MurmurHash
