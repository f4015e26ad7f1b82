import RwWitness.Rw
import RwWitness.RwMap
import RwWitness.Order
import RwWitness.CheckValue
import RwWitness.Padding
import RwWitness.Sanity
import RwWitness.RwRow
import RwWitness.Builder
import RwWitness.Replay
