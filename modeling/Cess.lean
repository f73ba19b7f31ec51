import Cess.FileBank.Types
import Cess.FileBank.Storage
import Cess.FileBank.Dispatch
import Cess.FileBank.Quota
import Cess.FileBank.Registry
import Cess.FileBank.Sampler
import Cess.FileBank.Pallet
import Cess.FileBank.Laws.Footprint
import Cess.FileBank.Laws.Quota
import Cess.FileBank.Laws.Owners
import Cess.FileBank.Laws.Commit
import Cess.FileBank.Laws.Audit
import Cess.FileBank.Laws.Draw
import Cess.FileBank.Laws.Purchase
import Cess.FileBank.Laws.Replace
import Cess.FileBank.Laws.Fillers
import Cess.FileBank.Laws.Lifecycle
import Cess.FileBank.Laws.Deletion
import Cess.FileBank.Laws.Queues
import Cess.TeeWorker.Pallet
import Cess.TeeWorker.Laws
