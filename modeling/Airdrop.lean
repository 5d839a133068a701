import Airdrop.Main
import Airdrop.Proofs.Claim.Bearer
import Airdrop.Proofs.Claim.Link
import Airdrop.Proofs.Claim.Tags
import Airdrop.Proofs.Distribution.Binding
import Airdrop.Proofs.Merkle.Positions
import Airdrop.Proofs.Merkle.Recursion
import Airdrop.Proofs.SignedRoot.Binding
import Airdrop.Proofs.SignedRoot.Delivery
import Airdrop.Proofs.Console.Reload
import Airdrop.Proofs.Json.Reading
import Airdrop.Proofs.Console.Audit
import Airdrop.Proofs.SignedRoot.Reading
import Airdrop.Proofs.Console.Ending
import Airdrop.Proofs.Console.Failure
import Airdrop.Proofs.Log.Complete
import Airdrop.Proofs.Leaf.Fields
import Airdrop.Proofs.Distribution.Assignment
import Airdrop.Proofs.Merkle.Branch
import Airdrop.Proofs.Curve.Equation
import Airdrop.Proofs.Claim.Reading
import Airdrop.Proofs.Service.Claims
import Airdrop.Proofs.Vectors.Emit
