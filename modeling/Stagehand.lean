import Stagehand.Main
import Stagehand.Proofs.FailedEffects
import Stagehand.Proofs.UpdatePass
import Stagehand.Proofs.Annals
import Stagehand.Proofs.FirstUpdates
import Stagehand.Proofs.Stops
import Stagehand.Proofs.Requests
import Stagehand.Proofs.DrawPass
import Stagehand.Proofs.Confinement
import Stagehand.Proofs.AddRequests
import Stagehand.Proofs.Echoes
import Stagehand.Proofs.Edits
import Stagehand.Proofs.Fences
import Stagehand.Proofs.Freshness
import Stagehand.Proofs.Isolation
import Stagehand.Proofs.Coverage
import Stagehand.Proofs.Identity
import Stagehand.Proofs.Cycles
import Stagehand.Proofs.CacheHistories
import Stagehand.Proofs.Marshalling
import Stagehand.Proofs.EntryPoints
import Stagehand.Proofs.LateEdits
import Stagehand.Proofs.Resets
import Stagehand.Proofs.Conversion
import Stagehand.Proofs.Deeds
import Stagehand.Proofs.ImageCache
import Stagehand.Proofs.ImportNames
import Stagehand.Proofs.StoreMaps
import Stagehand.Proofs.Messages
import Stagehand.Proofs.Settling
import Stagehand.Proofs.ScanOrders
import Stagehand.Proofs.Compositing
import Stagehand.Proofs.Arguments
import Stagehand.Proofs.LibraryIndex
import Stagehand.Proofs.Frames
import Stagehand.Proofs.Settings
import Stagehand.Proofs.Warnings
