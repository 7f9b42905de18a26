import ComputeArray.Acquisition
import ComputeArray.Bytes.Digest
import ComputeArray.Catalogue
import ComputeArray.FailureClass
import ComputeArray.Random.Uniform
import ComputeArray.Proofs.Cache.Transparency
import ComputeArray.Proofs.Memory.SingleCopy
import ComputeArray.Proofs.Calls.Computed
import ComputeArray.Proofs.Lifetime.Run
import ComputeArray.Proofs.Random.Period
import ComputeArray.Proofs.Random.Construction
import ComputeArray.Proofs.Calls.Failing
import ComputeArray.Proofs.Loading.Stored
import ComputeArray.Proofs.Loading.Observed
import ComputeArray.Proofs.Interface.Calls
import ComputeArray.Proofs.Queue.Backlog
import ComputeArray.Proofs.Loss.Finality
import ComputeArray.Proofs.Custody.Course
import ComputeArray.Proofs.Aliasing.Calls
import ComputeArray.Proofs.Launch.Coverage
import ComputeArray.Proofs.Cache.Recency
import ComputeArray.Proofs.Cache.Content
import ComputeArray.Proofs.Random.Draws
import ComputeArray.Proofs.Layout.CommonShape
import ComputeArray.Proofs.Layout.Reshape
import ComputeArray.Proofs.Layout.Elements
import ComputeArray.Proofs.Interface.Scalars
import ComputeArray.Proofs.Random.Seeding
import ComputeArray.Proofs.Random.Failing
import ComputeArray.Proofs.Element.Resolution
import ComputeArray.Proofs.Half.Run
import ComputeArray.Proofs.Options.Precedence
import ComputeArray.Proofs.Random.UnitInterval
import ComputeArray.Proofs.Loading.Sharing
