import DocStore.Datasource
import DocStore.Derive.Description
import DocStore.Filter.Spelling
import DocStore.Model.Record
import DocStore.Proofs.ArrayRanges
import DocStore.Proofs.Creation
import DocStore.Proofs.DerivedKeys
import DocStore.Proofs.FirstInOrder
import DocStore.Proofs.Increments
import DocStore.Proofs.IntegerComparison
import DocStore.Proofs.KeyReference
import DocStore.Proofs.KeyStability
import DocStore.Proofs.KeyedAccess
import DocStore.Proofs.Lifecycle
import DocStore.Proofs.LifecyclePaths
import DocStore.Proofs.ListWrites
import DocStore.Proofs.Meaning
import DocStore.Proofs.OrderLists
import DocStore.Proofs.Projections
import DocStore.Proofs.Routing
import DocStore.Proofs.SchemaTables
import DocStore.Proofs.SoftDelete
import DocStore.Proofs.StandardReads
import DocStore.Proofs.Streaming
import DocStore.Proofs.TypeSpelling
import DocStore.Proofs.UpdateReports
import DocStore.Proofs.Validation
import DocStore.Repository.Operation
