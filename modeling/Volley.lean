import Volley.Main
import Volley.Session
import Volley.Snapshot.Text
import Volley.Proofs.Client.OneToOne
import Volley.Proofs.Client.NoRespawn
import Volley.Proofs.Client.Clock
import Volley.Proofs.Client.Drawing
import Volley.Proofs.Client.Mirror
import Volley.Proofs.Session.DelayLine
import Volley.Proofs.Session.Lockstep
import Volley.Proofs.Wire.Delimited
import Volley.Proofs.Scalar.Finite
import Volley.Proofs.Shot.Lifespan
import Volley.Proofs.Shot.Recall
import Volley.Proofs.Shot.Republish
import Volley.Proofs.Shot.Bounce
import Volley.Proofs.TileGrid.FreeEnds
import Volley.Proofs.World.Accounts
import Volley.Proofs.World.Bounces
import Volley.Proofs.World.Correction
import Volley.Proofs.World.Idempotence
import Volley.Proofs.World.Independence
import Volley.Proofs.World.Late
import Volley.Proofs.World.Legacy
import Volley.Proofs.World.Ended
import Volley.Proofs.World.Orderly
import Volley.Proofs.World.Retired
import Volley.Proofs.Shot.Agreement
import Volley.Proofs.Tuning
import Volley.Proofs.TileGrid.Rows
import Volley.Proofs.TileGrid.Storage
import Volley.Proofs.Snapshot.Text
