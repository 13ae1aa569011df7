import MiniJava.Main
import MiniJava.Proofs.Beginnings
import MiniJava.Proofs.Depth.Sessions
import MiniJava.Proofs.Expecting.Sessions
import MiniJava.Proofs.Following.Program
import MiniJava.Proofs.Fragments
import MiniJava.Proofs.Grouping
import MiniJava.Proofs.Height
import MiniJava.Proofs.Layout
import MiniJava.Proofs.LineBreaks
import MiniJava.Proofs.Listings
import MiniJava.Proofs.Locals
import MiniJava.Proofs.Nodes
import MiniJava.Proofs.Outlines.Injectivity
import MiniJava.Proofs.Recovery.Stretches
import MiniJava.Proofs.Scanning
import MiniJava.Proofs.Viewing.Marks
import MiniJava.Proofs.Viewing.Painting
import MiniJava.Proofs.Viewing.Walking
import MiniJava.Scanner
import MiniJava.Session
import MiniJava.Trace
import MiniJava.Viewer.Render
