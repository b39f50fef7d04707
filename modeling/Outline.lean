import Outline.Block.Locate
import Outline.Block.Session
import Outline.Block.Splice
import Outline.Cli.Args
import Outline.Cli.Event
import Outline.Cli.Report
import Outline.Cli.Run
import Outline.Cli.Settings
import Outline.Disk.Basic
import Outline.Disk.Glob
import Outline.Format.Registry
import Outline.Heading.Bars
import Outline.Heading.Basic
import Outline.Heading.Html
import Outline.Heading.Marker
import Outline.Heading.Pod
import Outline.Heading.Read
import Outline.Heading.Roff
import Outline.Heading.Underline
import Outline.Main
import Outline.Proofs.BlockText
import Outline.Proofs.Frame
import Outline.Proofs.FrameWidth
import Outline.Proofs.Insert
import Outline.Proofs.Preamble
import Outline.Proofs.Lines
import Outline.Proofs.Quiet
import Outline.Proofs.Readers
import Outline.Proofs.Refresh
import Outline.Proofs.Scanner
import Outline.Proofs.Settle
import Outline.Proofs.TocLines
import Outline.Settings.Config
import Outline.Settings.Level
import Outline.Settings.Logging
import Outline.Text.Affix
import Outline.Text.Blank
import Outline.Text.Escape
import Outline.Text.Lines
import Outline.Text.Lowercase
import Outline.Text.Number
import Outline.Toc
import Outline.Tree.Connect
import Outline.Tree.Frame
import Outline.Proofs.Drawing
import Outline.Proofs.Placement
import Outline.Proofs.Layout
import Outline.Proofs.Outcome
import Outline.Proofs.Disk
import Outline.Proofs.InPlace
import Outline.Proofs.LineNumbers
import Outline.Proofs.BarLines
import Outline.Proofs.MarkerLines
import Outline.Proofs.LineEndings
import Outline.Proofs.Shadowing
import Outline.Proofs.Redrawing
import Outline.Proofs.HeadingElements
import Outline.Proofs.Environment
import Outline.Proofs.Offsets
