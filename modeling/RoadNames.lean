import RoadNames.Main
import RoadNames.Proofs.Network.BreadthFirst
import RoadNames.Proofs.Network.Faithful
import RoadNames.Proofs.Check.Mended
import RoadNames.Proofs.Check.Range
import RoadNames.Proofs.Random.Streams
import RoadNames.Proofs.Storage
import RoadNames.Proofs.Task.Features
import RoadNames.Proofs.Run.Alike
import RoadNames.Proofs.Run.Selection
import RoadNames.Proofs.Run.Logged
